import XprcServer.Commands.HoldRuns
import XprcServer.Commands.Sampling

/-!
# Runs of a CMTR command

`cmtr_create` reads the options of CMTR.  The command that it leaves is then run by flight loops and
by post-processing, in any order.  With `times` = n, every cycle is meant to start each entry once,
by `XPLMCommandBegin` or by `XPLMCommandOnce`, and the n-th is meant to be the last one.

What is held is released when the duration has passed, and only this makes the command finish if
there is something to hold.  If the interval passes before, the n-th cycle is released and another
one starts at once: `cmtr_process_flightloop` has set `finishing`, but goes on with the cycle that
is due.

* `configure` : the part of `cmtr_create` that reads the request;
* `Counts` : how often the entries have been started is told by `times_remaining`;
* `starts_le_times` : as long as no cycle becomes due while the last one is held, each entry is
  started at most n times, and n times when the command finishes;
* `runCycle_exceeds` : a cycle that does become due then is one too many.
-/

namespace XprcServer

open Lib

/-! ### Counting what is started -/

namespace XpSide

/-- How often X-Plane was told to begin or to trigger for the entry at `a`. -/
def startsOf (a : ℕ) (xp : XpSide) : ℕ :=
  xp.calls.countP fun call => call.entry = some a ∧ call.function ≠ .commandEnd

variable {a : ℕ}

theorem startsOf_call (call : XplmCommandCall) (xp : XpSide) :
    (xp.call call).startsOf a =
      xp.startsOf a + if call.entry = some a ∧ call.function ≠ .commandEnd then 1 else 0 := by
  simp [startsOf, XpSide.call, List.countP_append, List.countP_singleton]

theorem startsOf_queueCommandEnd (results : QueueResults) (xpRef entry : Option ℕ) (xp : XpSide) :
    (xp.queueCommandEnd results xpRef entry).2.startsOf a = xp.startsOf a := by
  rcases queueCommandEnd_cases results xpRef entry xp with ⟨-, heq⟩ | heq
  · rw [heq]
  · rw [heq]
    rfl

theorem startsOf_flushXpqueue (mtxLock : Bool) (xp : XpSide) :
    (xp.flushXpqueue mtxLock).2.startsOf a = xp.startsOf a := by
  rcases flushXpqueue_cases mtxLock xp with ⟨heq, -⟩ | heq
  · rw [heq]
  · rw [heq]
    simp [startsOf, List.countP_append, List.countP_map, Function.comp_def]

/-- The queue starts nothing. -/
theorem startsOf_execAll (ops : List XpqueueOp) (xp : XpSide) :
    (xp.execAll ops).startsOf a = xp.startsOf a := by
  induction ops generalizing xp with
  | nil => rfl
  | cons op ops ih =>
    refine (ih _).trans ?_
    cases op with
    | queueCommandEnd results xpRef => exact startsOf_queueCommandEnd results xpRef none xp
    | flushXpqueue mtxLock => exact startsOf_flushXpqueue mtxLock xp

end XpSide

namespace HoldEntry

variable {a : ℕ}

theorem startsOf_forAllXprefs {function : XplmCommandFunction} (hfunction : function ≠ .commandEnd)
    (holding : Bool) (entries : List HoldEntry) (xp : XpSide) :
    (forAllXprefs function holding false entries xp).2.startsOf a =
      xp.startsOf a + (entries.map HoldEntry.address).count a := by
  induction entries generalizing xp with
  | nil => rfl
  | cons entry rest ih =>
    have hcall : (callFor function false entry xp).startsOf a =
        xp.startsOf a + if entry.address = a then 1 else 0 := by
      simp [callFor, XpSide.startsOf_call, hfunction]
    refine (ih _).trans ?_
    rw [hcall, List.map_cons, List.count_cons, Nat.add_assoc, Nat.add_comm (List.count _ _)]
    simp

theorem startsOf_forAllXprefsReversed (holding onlyIfHeld : Bool) (entries : List HoldEntry)
    (xp : XpSide) :
    (forAllXprefsReversed .commandEnd holding onlyIfHeld entries xp).2.startsOf a =
      xp.startsOf a := by
  induction entries with
  | nil => rfl
  | cons entry rest ih =>
    refine Eq.trans ?_ ih
    change (callFor _ _ _ _).startsOf a = _
    unfold callFor
    split
    · simp [XpSide.startsOf_call]
    · rfl

/-- Neither do the releases that a termination queues. -/
theorem startsOf_releaseAll (env : ReleaseEnv) (keep : HoldEntry → Option HoldEntry)
    (entries : List HoldEntry) (xp : XpSide) :
    (releaseAll env keep entries xp).2.2.startsOf a = xp.startsOf a := by
  induction entries with
  | nil => rfl
  | cons entry rest ih =>
    have hqueued : ((((releaseAll env keep rest xp).2.2.execAll
        (env.others entry.address)).queueCommandEnd (env.results entry.address) entry.xpRef
          (some entry.address)).2).startsOf a = xp.startsOf a := by
      rw [XpSide.startsOf_queueCommandEnd, XpSide.startsOf_execAll, ih]
    unfold releaseAll
    dsimp only
    split_ifs
    · exact hqueued
    · exact hqueued
    · exact ih

theorem releaseAll_map_address (env : ReleaseEnv) (entries : List HoldEntry) (xp : XpSide) :
    (releaseAll env (fun entry => some { entry with held := false }) entries xp).1.map
      HoldEntry.address = entries.map HoldEntry.address := by
  induction entries with
  | nil => rfl
  | cons entry rest ih =>
    unfold releaseAll
    dsimp only
    split_ifs
    all_goals simp [ih]

end HoldEntry

namespace Cmtr

/-! ### Creation -/

/-- `INFINITE_REPETITION` -/
def infiniteRepetition : ℤ := -2134896

/-- `cmtr_supported_options` -/
def supportedOptions : List String := ["hold", "monitor", "repeatFreq", "times"]

/-- `is_suffixed_millis` -/
def isSuffixedMillis (s : List UInt8) : Bool := endsWith s (bytes "ms")

/-- `is_suffixed_frames` -/
def isSuffixedFrames (s : List UInt8) : Bool := endsWith s (bytes "f")

/-- `is_valid_interval` -/
def isValidInterval (s : List UInt8) : Bool := isSuffixedMillis s || isSuffixedFrames s

/-- `parse_times` -/
def parseTimes (lib : Library) (s : List UInt8) : ℤ :=
  if s = bytes "infinite" then infiniteRepetition else atoi lib s

/-- `parse_monitor_mode`; nothing is `CMTR_INVALID`. -/
def parseMonitorMode (s : List UInt8) : Option CmtrMonitorMode :=
  if s = bytes "cycle" then some .cycle
  else if s = bytes "holdRelease" then some .holdRelease
  else if s = bytes "none" then some .disable
  else none

/-- The loop of `cmtr_create` over the parameters; the `n`-th entry is allocated at `address n`.  An
error may have no message. -/
def createEntries (address : ℕ → ℕ) : ℕ → List (List UInt8) → Except (Option String)
    (List HoldEntry)
  | _, [] => .ok []
  | n, parameter :: rest =>
    match unescapeLoop false (cString parameter) with
    | none => .error none
    | some name =>
      if name.length < 1 then .error (some "XP command names must not be empty")
      else do
        let entries ← createEntries address (n + 1) rest
        pure (⟨address n, name, false, none⟩ :: entries)

/-- The part of `cmtr_create` that sets the interval, and whether it counts frames: a single run
effectively disables it. -/
def intervalOf (lib : Library) (timesRemaining : ℤ) (reqInterval : List UInt8) : ℤ × Bool :=
  if timesRemaining = 1 then (2147483647, false)
  else (atoi lib reqInterval, isSuffixedFrames reqInterval)

/-- The part of `cmtr_create` that reads the options and the parameters of the request; `millis` is
the result of `millis_since_reference`.  All that is left then is to schedule the task. -/
def configure (lib : Library) (address : ℕ → ℕ) (request : Request) (millis : ℤ) :
    Except (Option String) CommandCmtr := do
  let reqDuration := request.getOption "hold" "0f"
  if !isValidInterval reqDuration then .error (some "invalid format for hold")
  let isDurationFrames := isSuffixedFrames reqDuration
  let duration := atoi lib reqDuration
  if duration < 0 then .error (some "invalid value for hold")
  let timesRemaining := parseTimes lib (request.getOption "times" "1")
  if timesRemaining < 1 ∧ timesRemaining ≠ infiniteRepetition then
    .error (some "invalid value for times")
  let reqInterval := request.getOption "repeatFreq" "1f"
  if !isValidInterval reqInterval then .error (some "invalid format for repeatFreq")
  if atoi lib reqInterval ≤ 0 then .error (some "invalid value for repeatFreq")
  let interval := intervalOf lib timesRemaining reqInterval
  let requiresTime := !interval.2 || !isDurationFrames
  if requiresTime && millis < 0 then .error (some "failed to retrieve session timestamp")
  let now := if requiresTime then millis else 0
  let monitorMode ← match parseMonitorMode (request.getOption "monitor" "cycle") with
    | none => .error (some "invalid monitor option")
    | some mode => .ok mode
  if request.parameters.isEmpty then .error (some "at least one command is required")
  let entries ← createEntries address 0 request.parameters
  pure
    { channelId := request.channelId
      task := none
      monitorMode := monitorMode
      requiresTime := requiresTime
      interval := interval.1
      intervalDueTime := if interval.2 then 0 else now + interval.1
      intervalRemainingFrames := 0
      isIntervalFrames := interval.2
      duration := duration
      durationDueTime := 0
      durationRemainingFrames := 0
      isDurationFrames := isDurationFrames
      timesRemaining := timesRemaining
      initialized := false
      failed := false
      finishing := false
      holding := false
      entries := entries }

/-- The entries lie where they were allocated, and are not held. -/
theorem createEntries_ok {address : ℕ → ℕ} {n : ℕ} {parameters : List (List UInt8)}
    {entries : List HoldEntry} (h : createEntries address n parameters = .ok entries) :
    entries.map HoldEntry.address = (List.range' n parameters.length).map address ∧
      ∀ entry ∈ entries, entry.held = false := by
  induction parameters generalizing n entries with
  | nil =>
    cases h
    exact ⟨rfl, by simp⟩
  | cons parameter rest ih =>
    unfold createEntries at h
    split at h
    · cases h
    rename_i name hname
    split at h
    · cases h
    cases hrest : createEntries address (n + 1) rest with
    | error text =>
      rw [hrest] at h
      cases h
    | ok others =>
      rw [hrest] at h
      cases h
      obtain ⟨haddresses, hheld⟩ := ih hrest
      refine ⟨?_, ?_⟩
      · rw [List.map_cons, haddresses, List.length_cons, List.range'_succ, List.map_cons]
      · intro entry hentry
        rcases List.mem_cons.1 hentry with rfl | hmem
        · rfl
        · exact hheld entry hmem

variable {lib : Library} {address : ℕ → ℕ} {request : Request} {millis : ℤ}

/-- The command that a request creates has the fields that were read from the options, and all
others are those of a new command. -/
theorem configure_ok {command : CommandCmtr}
    (h : configure lib address request millis = .ok command) :
    command.timesRemaining = parseTimes lib (request.getOption "times" "1") ∧
      (1 ≤ command.timesRemaining ∨ command.timesRemaining = infiniteRepetition) ∧
      (command.initialized = false ∧ command.failed = false ∧ command.finishing = false ∧
        command.holding = false) ∧
      command.entries.map HoldEntry.address =
        (List.range request.parameters.length).map address ∧
      0 < command.interval ∧
      (command.isIntervalFrames = false → command.requiresTime = true ∧ 0 ≤ millis ∧
        command.intervalDueTime = millis + command.interval) ∧
      (command.timesRemaining ≠ 1 →
        command.interval = atoi lib (request.getOption "repeatFreq" "1f") ∧
          command.isIntervalFrames = isSuffixedFrames (request.getOption "repeatFreq" "1f")) := by
  unfold configure at h
  simp only [bind, Except.bind, pure, Except.pure] at h
  split at h
  · cases h
  split at h
  · cases h
  split at h
  · cases h
  rename_i htimes
  split at h
  · cases h
  split at h
  · cases h
  rename_i hinterval
  split at h
  · cases h
  rename_i htime
  split at h
  · cases h
  split at h
  · cases h
  split at h
  · cases h
  rename_i entries hentries
  cases h
  set times := parseTimes lib (request.getOption "times" "1") with htimesEq
  set interval := intervalOf lib times (request.getOption "repeatFreq" "1f") with hintervalEq
  have hpos : 0 < interval.1 := by
    rw [hintervalEq, intervalOf]
    split
    · decide
    · exact Int.not_le.1 hinterval
  refine ⟨rfl, ?_, ⟨rfl, rfl, rfl, rfl⟩, ?_, hpos, fun hmillis => ?_, fun hmany => ?_⟩
  · by_contra hneither
    rw [not_or] at hneither
    exact htimes ⟨Int.not_le.1 hneither.1, hneither.2⟩
  · rw [(createEntries_ok hentries).1, List.range_eq_range']
  · dsimp only at hmillis ⊢
    rw [hmillis] at htime
    simp only [Bool.not_false, Bool.true_or, Bool.true_and, decide_eq_true_eq, Int.not_lt] at htime
    rw [hmillis]
    exact ⟨rfl, htime, rfl⟩
  · have hread : interval =
        (atoi lib (request.getOption "repeatFreq" "1f"),
          isSuffixedFrames (request.getOption "repeatFreq" "1f")) := if_neg hmany
    rw [hread]
    exact ⟨rfl, rfl⟩

/-! ### What the parts of a flight loop do -/

variable {s s' : State}

/-- The entries, all of them held or none. -/
def marked (held : Bool) (entries : List HoldEntry) : List HoldEntry :=
  entries.map fun entry => { entry with held := held }

@[simp] theorem map_address_marked (held : Bool) (entries : List HoldEntry) :
    (marked held entries).map HoldEntry.address = entries.map HoldEntry.address := by
  simp [marked, Function.comp_def]

/-- What `times_remaining` is after a cycle was counted. -/
def cyclesLeft (times : ℤ) : ℤ := if 0 < times then times - 1 else times

theorem notifyChannel_command (action : CmtrAction) (mayClose : Bool) (s : State) :
    (notifyChannel action mayClose s).command = s.command := by
  unfold notifyChannel
  dsimp only
  split
  · rfl
  · cases action with
    | holdOrTrigger =>
      dsimp only
      split
      · rfl
      · rfl
    | release => rfl

theorem finishIfLast_command (s : State) : (finishIfLast s).command =
    { s.command with finishing := s.command.finishing || s.command.timesRemaining = 0 } := by
  unfold finishIfLast
  split
  · rename_i hlast
    simp [State.modify, hlast]
  · rename_i hmore
    simp [hmore]

theorem countCycle_command (s : State) : (countCycle s).command =
    { s.command with timesRemaining := cyclesLeft s.command.timesRemaining } := by
  unfold countCycle cyclesLeft
  split
  · rfl
  · rfl

theorem restartDuration_command (now : ℤ) (s : State) :
    ∃ frames due, (restartDuration now s).command =
      { s.command with durationRemainingFrames := frames, durationDueTime := due } := by
  unfold restartDuration
  split
  · exact ⟨s.command.duration, s.command.durationDueTime, rfl⟩
  · exact ⟨s.command.durationRemainingFrames, now + s.command.duration, rfl⟩

theorem releaseBefore_command (s : State) : (releaseBefore s).command =
    { s.command with
      finishing := s.command.finishing || s.command.timesRemaining = 0
      holding := false
      entries := marked false s.command.entries } := by
  unfold releaseBefore releaseAllHeldXprefs
  dsimp only
  rw [HoldEntry.forAllXprefsReversed_fst, notifyChannel_command, finishIfLast_command]
  rfl

theorem releaseBefore_startsOf (a : ℕ) (s : State) :
    (releaseBefore s).xp.startsOf a = s.xp.startsOf a := by
  unfold releaseBefore releaseAllHeldXprefs
  dsimp only
  rw [HoldEntry.startsOf_forAllXprefsReversed, (adjusts_notifyChannel _ _ _).agrees.xp,
    (adjusts_finishIfLast s).agrees.xp]

theorem holdAllXprefs_command (s : State) : (holdAllXprefs s).command =
    { s.command with holding := true, entries := marked true s.command.entries } := by
  unfold holdAllXprefs
  dsimp only
  rw [HoldEntry.forAllXprefs_fst, notifyChannel_command]
  rfl

theorem triggerAllXprefs_command (hholding : s.command.holding = false) (isLastAction : Bool) :
    (triggerAllXprefs isLastAction s).command =
      { s.command with entries := marked false s.command.entries } := by
  unfold triggerAllXprefs
  dsimp only
  rw [hholding, if_neg Bool.false_ne_true, notifyChannel_command, HoldEntry.forAllXprefs_fst]
  dsimp only
  rw [notifyChannel_command]
  simp [marked, hholding]

/-- A cycle starts when nothing is held: the entries are held from then on if there is a duration,
and otherwise the command may finish. -/
theorem startCycle_command (hholding : s.command.holding = false) (now : ℤ) :
    ∃ frames due, (startCycle now s).command =
      { s.command with
        timesRemaining := cyclesLeft s.command.timesRemaining
        durationRemainingFrames := frames
        durationDueTime := due
        finishing := s.command.finishing ||
          (decide (s.command.duration ≤ 0) && decide (cyclesLeft s.command.timesRemaining = 0))
        holding := 0 < s.command.duration
        entries := marked (0 < s.command.duration) s.command.entries } := by
  have hcount := countCycle_command s
  obtain ⟨frames, due, hrestart⟩ := restartDuration_command now (countCycle s)
  unfold startCycle
  dsimp only
  by_cases hduration : 0 < s.command.duration
  · rw [if_pos (by rw [hcount]; exact hduration), holdAllXprefs_command, hrestart, hcount]
    exact ⟨frames, due, by simp [hduration, Int.not_le.2 hduration]⟩
  · have hfinish := finishIfLast_command (countCycle s)
    rw [if_neg (by rw [hcount]; exact hduration), triggerAllXprefs_command, hfinish, hcount]
    · exact ⟨s.command.durationRemainingFrames, s.command.durationDueTime,
        by simp [hduration, Int.not_lt.1 hduration, hholding]⟩
    · rw [hfinish, hcount]
      exact hholding

theorem startCycle_startsOf (hholding : s.command.holding = false) (now : ℤ) (a : ℕ) :
    (startCycle now s).xp.startsOf a =
      s.xp.startsOf a + (s.command.entries.map HoldEntry.address).count a := by
  have hcount := (adjusts_countCycle s).agrees
  unfold startCycle
  dsimp only
  split
  · have hrestart := (adjusts_restartDuration now (countCycle s)).agrees
    unfold holdAllXprefs
    dsimp only
    rw [HoldEntry.startsOf_forAllXprefs (by decide), (adjusts_notifyChannel _ _ _).agrees.xp,
      notifyChannel_command]
    simp [State.modify, hrestart.xp, hcount.xp, hrestart.entries, hcount.entries]
  · have hfinish := (adjusts_finishIfLast (countCycle s)).agrees
    unfold triggerAllXprefs
    rw [hfinish.holding, hcount.holding, hholding, if_neg Bool.false_ne_true]
    dsimp only
    rw [(adjusts_notifyChannel _ _ _).agrees.xp]
    dsimp only
    rw [HoldEntry.startsOf_forAllXprefs (by decide), (adjusts_notifyChannel _ _ _).agrees.xp,
      notifyChannel_command]
    simp [hfinish.xp, hcount.xp, hfinish.entries, hcount.entries]

/-- A cycle is due: the counter of frames runs out, or the due time has been reached. -/
def cycleDue (now : ℤ) (command : CommandCmtr) : Bool :=
  if command.isIntervalFrames then command.intervalRemainingFrames ≤ 1
  else command.intervalDueTime ≤ now

theorem checkInterval_fst (now : ℤ) (shouldHold : Bool) (command : CommandCmtr) :
    (checkInterval now shouldHold command).1 = (shouldHold || cycleDue now command) := by
  unfold checkInterval cycleDue
  split
  · have hcounter : command.intervalRemainingFrames - 1 ≤ 0 ↔
        command.intervalRemainingFrames ≤ 1 := by
      omega
    simp [hcounter]
  · rfl

/-- The two checks change counters and due times only. -/
theorem checks_command (now : ℤ) (shouldHold : Bool) (command : CommandCmtr) :
    ∃ intervalFrames durationFrames,
      (checkDuration now (checkInterval now shouldHold command).1
        (checkInterval now shouldHold command).2).2 =
      { command with
        intervalDueTime := (checkInterval now shouldHold command).2.intervalDueTime
        intervalRemainingFrames := intervalFrames
        durationRemainingFrames := durationFrames } := by
  have hinterval : ∃ frames, (checkInterval now shouldHold command).2 =
      { command with
        intervalDueTime := (checkInterval now shouldHold command).2.intervalDueTime
        intervalRemainingFrames := frames } := by
    unfold checkInterval
    split
    · exact ⟨_, rfl⟩
    · exact ⟨command.intervalRemainingFrames, rfl⟩
  obtain ⟨frames, hinterval⟩ := hinterval
  have hduration : ∀ starts (command' : CommandCmtr), ∃ frames',
      (checkDuration now starts command').2 =
        { command' with durationRemainingFrames := frames' } := by
    intro starts command'
    unfold checkDuration
    split_ifs
    · exact ⟨command'.durationRemainingFrames, rfl⟩
    · exact ⟨_, rfl⟩
    · exact ⟨command'.durationRemainingFrames, rfl⟩
    · exact ⟨command'.durationRemainingFrames, rfl⟩
  obtain ⟨frames', hduration⟩ := hduration (checkInterval now shouldHold command).1
    (checkInterval now shouldHold command).2
  exact ⟨frames, frames', hduration.trans (by rw [hinterval])⟩

theorem checkDuration_fst {now : ℤ} {starts : Bool} {command : CommandCmtr}
    (h : (checkDuration now starts command).1 = true) : command.holding = true := by
  unfold checkDuration at h
  split_ifs at h
  all_goals simp_all

/-- What a flight loop of a command that is initialized does, once the counters and due times are
those of `checked`: it releases what is held, it starts a cycle, or both or neither of them. -/
theorem runCycle_cases (now : ℤ) (shouldHold : Bool) (s : State) :
    ∃ intervalFrames durationFrames, ∃ checked : State, checked =
      { s with command :=
        { s.command with
          intervalDueTime := (checkInterval now shouldHold s.command).2.intervalDueTime
          intervalRemainingFrames := intervalFrames
          durationRemainingFrames := durationFrames } } ∧
      (((shouldHold || cycleDue now s.command) = true ∧
        (s.command.holding = true ∧ runCycle now shouldHold s = startCycle now
          (releaseBefore checked) ∨
          s.command.holding = false ∧ runCycle now shouldHold s = startCycle now checked)) ∨
      ((shouldHold || cycleDue now s.command) = false ∧
        (runCycle now shouldHold s = releaseBefore checked ∨
          runCycle now shouldHold s = checked))) := by
  obtain ⟨frames, frames', hchecks⟩ := checks_command now shouldHold s.command
  refine ⟨frames, frames', _, rfl, ?_⟩
  have hsame : (checkInterval now shouldHold s.command).2.holding = s.command.holding :=
    (adjusts_checkInterval now shouldHold s).agrees.holding
  unfold runCycle
  dsimp only
  rw [hchecks, ← checkInterval_fst]
  cases hstarts : (checkInterval now shouldHold s.command).1 with
  | true =>
    left
    refine ⟨rfl, ?_⟩
    rw [if_pos rfl]
    cases hholding : s.command.holding with
    | true =>
      left
      rw [if_pos (checkDuration_of_holding now (hsame.trans hholding))]
      exact ⟨rfl, rfl⟩
    | false =>
      right
      rw [if_neg]
      · exact ⟨rfl, rfl⟩
      · intro hrelease
        exact absurd ((hsame.symm.trans (checkDuration_fst hrelease)).symm.trans hholding)
          (by decide)
  | false =>
    right
    refine ⟨rfl, ?_⟩
    rw [if_neg Bool.false_ne_true]
    split
    · exact .inl rfl
    · exact .inr rfl

/-- Whatever is released, the entries are started iff a cycle starts. -/
theorem runCycle_startsOf (now : ℤ) (shouldHold : Bool) (s : State) (a : ℕ) :
    (runCycle now shouldHold s).xp.startsOf a = s.xp.startsOf a +
      if shouldHold || cycleDue now s.command then (s.command.entries.map HoldEntry.address).count a
      else 0 := by
  obtain ⟨frames, frames', checked, hchecked, hcases⟩ := runCycle_cases now shouldHold s
  have hxp : checked.xp = s.xp := by rw [hchecked]
  have hentries : checked.command.entries = s.command.entries := by rw [hchecked]
  have hholding : checked.command.holding = s.command.holding := by rw [hchecked]
  rcases hcases with ⟨hstarts, ⟨-, heq⟩ | ⟨hnone, heq⟩⟩ | ⟨hnostart, heq | heq⟩
  · rw [heq, hstarts, startCycle_startsOf (by rw [releaseBefore_command]), releaseBefore_startsOf,
      releaseBefore_command, hxp]
    simp [hentries]
  · rw [heq, hstarts, startCycle_startsOf (hholding.trans hnone), hxp, hentries]
    simp
  · rw [heq, hnostart, releaseBefore_startsOf, hxp]
    simp
  · rw [heq, hnostart, hxp]
    simp

/-! ### Counting over a run -/

/-- The entries at the `addresses` have been started once for each of the `n` cycles that do not
remain.  Unless the last of them is still held, there are cycles left or the command is
finishing. -/
structure Counts (n : ℤ) (addresses : List ℕ) (s : State) : Prop where
  addresses_eq : s.command.entries.map HoldEntry.address = addresses
  started : ∀ a ∈ addresses, (s.xp.startsOf a : ℤ) = n - s.command.timesRemaining
  remaining : 0 ≤ s.command.timesRemaining
  finished : s.command.finishing = true → s.command.timesRemaining = 0
  last : s.command.timesRemaining = 0 → s.command.finishing = false → s.command.holding = true
  working : s.command.holding = true →
    s.command.initialized = true ∧ s.command.failed = false ∧ s.command.finishing = false

variable {n : ℤ} {addresses : List ℕ}

/-- Counters and due times do not matter. -/
theorem Counts.checked (h : Counts n addresses s) (due intervalFrames durationFrames : ℤ) :
    Counts n addresses { s with command :=
      { s.command with
        intervalDueTime := due
        intervalRemainingFrames := intervalFrames
        durationRemainingFrames := durationFrames } } :=
  ⟨h.addresses_eq, h.started, h.remaining, h.finished, h.last, h.working⟩

theorem Counts.releaseBefore (h : Counts n addresses s) : Counts n addresses (releaseBefore s) := by
  have hcommand := releaseBefore_command s
  refine ⟨?_, fun a ha => ?_, ?_, fun hfinishing => ?_, fun hlast hfinishing => ?_,
    fun hholding => ?_⟩
  · rw [hcommand, map_address_marked, h.addresses_eq]
  · rw [releaseBefore_startsOf, h.started a ha, hcommand]
  · rw [hcommand]
    exact h.remaining
  · rw [hcommand] at hfinishing ⊢
    rcases Bool.or_eq_true_iff.1 hfinishing with hbefore | hnow
    · exact h.finished hbefore
    · exact of_decide_eq_true hnow
  · rw [hcommand] at hlast hfinishing
    simp [show s.command.timesRemaining = 0 from hlast] at hfinishing
  · rw [hcommand] at hholding
    cases hholding

theorem Counts.startCycle (h : Counts n addresses s) (hnodup : addresses.Nodup)
    (hholding : s.command.holding = false) (hremaining : 0 < s.command.timesRemaining)
    (hinit : s.command.initialized = true) (hfailed : s.command.failed = false) (now : ℤ) :
    Counts n addresses (startCycle now s) := by
  obtain ⟨frames, due, hcommand⟩ := startCycle_command hholding now
  have hleft : cyclesLeft s.command.timesRemaining = s.command.timesRemaining - 1 :=
    if_pos hremaining
  have hfinishing : s.command.finishing = false := by
    by_contra hfinishing
    have := h.finished (by simpa using hfinishing)
    omega
  refine ⟨?_, fun a ha => ?_, ?_, fun hlast => ?_, fun hlast hnot => ?_, fun hheld => ?_⟩
  · rw [hcommand, map_address_marked, h.addresses_eq]
  · -- one cycle less, and one start more of each entry
    have hstarted := h.started a ha
    rw [startCycle_startsOf hholding, h.addresses_eq, List.count_eq_one_of_mem hnodup ha, hcommand]
    dsimp only
    rw [hleft]
    omega
  · rw [hcommand]
    dsimp only
    rw [hleft]
    omega
  · rw [hcommand] at hlast ⊢
    simp only [hfinishing, Bool.false_or, Bool.and_eq_true, decide_eq_true_eq] at hlast
    exact hlast.2
  · rw [hcommand] at hlast hnot ⊢
    have hzero : cyclesLeft s.command.timesRemaining = 0 := hlast
    simp only [hfinishing, Bool.false_or, hzero, decide_true, Bool.and_true,
      decide_eq_false_iff_not, Int.not_le] at hnot
    exact decide_eq_true hnot
  · rw [hcommand] at hheld ⊢
    refine ⟨hinit, hfailed, ?_⟩
    simp [hfinishing, Int.not_le.2 (of_decide_eq_true hheld)]

/-- A flight loop of a command that is initialized keeps the count, unless it starts a cycle while
the last one is held. -/
theorem Counts.runCycle (h : Counts n addresses s) (hnodup : addresses.Nodup)
    (hinit : s.command.initialized = true) (hfailed : s.command.failed = false)
    (hfinishing : s.command.finishing = false) {now : ℤ} {shouldHold : Bool}
    (hkeeps : s.command.holding = true → s.command.timesRemaining = 0 →
      (shouldHold || cycleDue now s.command) = false) :
    Counts n addresses (runCycle now shouldHold s) := by
  obtain ⟨frames, frames', checked, rfl, hcases⟩ := runCycle_cases now shouldHold s
  have hchecked :=
    h.checked (checkInterval now shouldHold s.command).2.intervalDueTime frames frames'
  rcases hcases with ⟨hstarts, ⟨hholding, heq⟩ | ⟨hholding, heq⟩⟩ | ⟨-, heq | heq⟩
  · -- released and started again: the last cycle is not the one that was held
    have hremaining : 0 < s.command.timesRemaining := by
      refine lt_of_le_of_ne h.remaining fun hzero => ?_
      exact absurd (hstarts.symm.trans (hkeeps hholding hzero.symm)) (by decide)
    rw [heq]
    refine hchecked.releaseBefore.startCycle hnodup ?_ ?_ ?_ ?_ now
    all_goals rw [releaseBefore_command]
    · exact hremaining
    · exact hinit
    · exact hfailed
  · -- nothing is held, so that a command without cycles would be finishing
    have hremaining : 0 < s.command.timesRemaining := by
      refine lt_of_le_of_ne h.remaining fun hzero => ?_
      exact absurd ((h.last hzero.symm hfinishing).symm.trans hholding) (by decide)
    rw [heq]
    exact hchecked.startCycle hnodup hholding hremaining hinit hfailed now
  · rw [heq]
    exact hchecked.releaseBefore
  · rw [heq]
    exact hchecked

theorem Counts.initializeCommand (h : Counts n addresses s) (hinit : s.command.initialized = false)
    (findCommand : List UInt8 → Option ℕ) (confirm : ErrorCode) :
    Counts n addresses (initializeCommand findCommand confirm s).2 := by
  have haddresses : (HoldEntry.findAll findCommand s.command.entries).1.map HoldEntry.address =
      addresses :=
        (HoldEntry.findAll_map_address findCommand s.command.entries).1.trans h.addresses_eq
  have hidle : s.command.holding = true → ∀ {P : Prop}, P := by
    intro hholding P
    exact absurd (hinit.symm.trans (h.working hholding).1) (by decide)
  unfold Cmtr.initializeCommand
  dsimp only
  split_ifs
  · exact ⟨haddresses, h.started, h.remaining, h.finished, h.last, fun hholding => hidle hholding⟩
  · exact ⟨haddresses, h.started, h.remaining, h.finished, h.last, fun hholding => hidle hholding⟩
  · exact ⟨haddresses, h.started, h.remaining, h.finished, h.last, fun hholding => hidle hholding⟩

/-- The time that a flight loop works with; it is 0 if the command does not require one. -/
def sessionTime (millis : ℤ) (command : CommandCmtr) : ℤ :=
  if command.requiresTime then millis else 0

/-- A cycle becomes due while the last one is held. -/
def Overruns (millis : ℤ) (command : CommandCmtr) : Prop :=
  0 ≤ sessionTime millis command ∧ command.holding = true ∧ command.timesRemaining = 0 ∧
    cycleDue (sessionTime millis command) command = true

instance (millis : ℤ) (command : CommandCmtr) : Decidable (Overruns millis command) := by
  unfold Overruns
  infer_instance

/-- What the first success of `cmtr_initialize` leaves is ready for the first cycle. -/
theorem initializeCommand_ready {findCommand : List UInt8 → Option ℕ} {confirm : ErrorCode}
    (hok : (initializeCommand findCommand confirm s).1 = true) :
    (initializeCommand findCommand confirm s).2.command =
      { s.command with
        entries := (HoldEntry.findAll findCommand s.command.entries).1, initialized := true } := by
  unfold initializeCommand at hok ⊢
  dsimp only at hok ⊢
  split_ifs at hok ⊢
  rfl

theorem Counts.processFlightloop (h : Counts n addresses s) (hnodup : addresses.Nodup) {millis : ℤ}
    (findCommand : List UInt8 → Option ℕ) (confirm : ErrorCode)
    (hkeeps : ¬ Overruns millis s.command) :
    Counts n addresses (processFlightloop millis findCommand confirm s) := by
  unfold Cmtr.processFlightloop
  dsimp only
  split
  · exact h
  rename_i hstopped
  obtain ⟨hfailed, hfinishing⟩ : s.command.failed = false ∧ s.command.finishing = false := by
    simpa using hstopped
  split
  · exact h
  rename_i htime
  have hnow : 0 ≤ sessionTime millis s.command := by
    unfold sessionTime
    split
    · rename_i hrequires
      simpa [hrequires] using htime
    · exact Int.le_refl 0
  split
  · rename_i hinit
    refine h.runCycle hnodup hinit hfailed hfinishing fun hholding hzero => ?_
    by_contra hdue
    exact hkeeps ⟨hnow, hholding, hzero, Bool.eq_true_of_not_eq_false hdue⟩
  · rename_i hinit
    have hfresh := h.initializeCommand (by simpa using hinit) findCommand confirm
    split
    · rename_i hok
      -- the first cycle starts at once, and nothing was held before
      have hready := initializeCommand_ready hok
      refine hfresh.runCycle hnodup ?_ ?_ ?_ fun hholding _ => ?_
      · rw [hready]
      · rw [hready]
        exact hfailed
      · rw [hready]
        exact hfinishing
      · rw [hready] at hholding
        exact absurd (h.working hholding).1 hinit
    · exact hfresh

theorem Counts.terminate (h : Counts n addresses s) (lock : ErrorCode)
    (env : HoldEntry.ReleaseEnv) :
    Counts n addresses (terminate lock env s).2 := by
  have hsame : ∀ port task, Counts n addresses
      { s with port := port, command := { s.command with task := task } } := fun port task =>
    ⟨h.addresses_eq, h.started, h.remaining, h.finished, h.last, h.working⟩
  have hreleased : ∀ port task id, Counts n addresses
      { command :=
          { s.command with
            task := task
            channelId := id
            entries := (HoldEntry.releaseAll env (fun entry => some { entry with held := false })
              s.command.entries s.xp).1 }
        port := port
        xp := (HoldEntry.releaseAll env (fun entry => some { entry with held := false })
          s.command.entries s.xp).2.2 } := by
    refine fun port task id => ⟨?_, fun a ha => ?_, h.remaining, h.finished, h.last, h.working⟩
    · exact (HoldEntry.releaseAll_map_address env _ _).trans h.addresses_eq
    · rw [HoldEntry.startsOf_releaseAll, h.started a ha]
  unfold Cmtr.terminate
  dsimp only
  split
  · exact hsame _ _
  · split
    · exact hreleased _ _ _
    · exact hreleased _ _ _

theorem Counts.processPost (h : Counts n addresses s) (lock : ErrorCode)
    (env : HoldEntry.ReleaseEnv) :
    Counts n addresses (processPost lock env s).2 := by
  unfold Cmtr.processPost
  split
  · exact h.terminate lock env
  · exact h

/-- A cycle that becomes due while the last one is held is started all the same. -/
theorem Counts.overrun (h : Counts n addresses s) (hnodup : addresses.Nodup) {millis : ℤ}
    (hover : Overruns millis s.command) (findCommand : List UInt8 → Option ℕ) (confirm : ErrorCode)
    {a : ℕ} (ha : a ∈ addresses) :
    ((Cmtr.processFlightloop millis findCommand confirm s).xp.startsOf a : ℤ) = n + 1 := by
  obtain ⟨hnow, hholding, hzero, hdue⟩ := hover
  obtain ⟨hinit, hfailed, hfinishing⟩ := h.working hholding
  have hrun : Cmtr.processFlightloop millis findCommand confirm s =
      Cmtr.runCycle (sessionTime millis s.command) false s := by
    have htime : (s.command.requiresTime && decide (millis < 0)) = false := by
      unfold sessionTime at hnow
      cases hrequires : s.command.requiresTime with
      | false => rfl
      | true =>
        rw [if_pos hrequires] at hnow
        simpa using hnow
    unfold Cmtr.processFlightloop sessionTime
    simp [hfailed, hfinishing, hinit, htime]
  have hstarted := h.started a ha
  rw [hrun, runCycle_startsOf, hdue, h.addresses_eq, List.count_eq_one_of_mem hnodup ha]
  simp only [Bool.or_true, if_true]
  omega

/-! ### The runs -/

/-- What a successful creation leaves: the options were read, and the command with what was read is
scheduled as the task `t`. -/
structure Created (lib : Library) (address : ℕ → ℕ) (request : Request) (millis : ℤ) (t : ℕ)
    (s : HoldRun) : Prop where
  options : request.hasOnlyOptions supportedOptions = true
  created : s.Created t
  configured : ∃ command, s.command = .cmtr command ∧
    configure lib address request millis = .ok { command with task := none }

/-- The runs of a command that `request` created at the time `millis`. -/
def cmtrSystem (lib : Library) (address : ℕ → ℕ) (request : Request) (millis : ℤ) (t : ℕ) :
    System HoldRun HoldAct where
  init := Created lib address request millis t
  next := HoldStep t

/-- No cycle becomes due while the last one is held. -/
def KeepsUp (s : HoldRun) (act : HoldAct) : Prop :=
  match s.command, act with
  | .cmtr command, .flightloop millis _ _ => ¬ Overruns millis command
  | _, _ => True

/-- The state of a run counts, whatever else is done to the queue, the channels and the schedule. -/
def Counting (n : ℤ) (addresses : List ℕ) (s : HoldRun) : Prop :=
  ∃ command, s.command = .cmtr command ∧ Counts n addresses ⟨command, s.port, s.xp⟩

theorem Created.counting {t : ℕ} {s : HoldRun} (h : Created lib address request millis t s)
    (hn : 1 ≤ n) (htimes : parseTimes lib (request.getOption "times" "1") = n) :
    Counting n ((List.range request.parameters.length).map address) s ∧
      ((List.range request.parameters.length).map address).Nodup := by
  obtain ⟨command, hcommand, hconfigured⟩ := h.configured
  obtain ⟨hread, -, ⟨hinit, hfailed, hfinishing, hholding⟩, haddresses, -⟩ :=
    configure_ok hconfigured
  have hremaining : command.timesRemaining = n := hread.trans htimes
  have hnodup := h.created.nodup
  rw [hcommand] at hnodup
  refine ⟨⟨command, hcommand, haddresses, fun a _ => ?_, ?_, fun hfinish => ?_, fun hzero => ?_,
    fun hheld => ?_⟩, haddresses ▸ hnodup⟩
  · -- nothing was called for an entry before
    have hnone : s.xp.startsOf a = 0 := by
      refine List.countP_eq_zero.2 fun call hcall => ?_
      simp [h.created.calls call hcall]
    dsimp only
    omega
  · dsimp only
    omega
  · exact absurd (hfinishing.symm.trans hfinish) (by decide)
  · dsimp only at hzero
    omega
  · exact absurd (hholding.symm.trans hheld) (by decide)

/-- Every step that keeps up keeps the count. -/
theorem Counting.step {t : ℕ} {s s' : HoldRun} {act : HoldAct} (h : Counting n addresses s)
    (hnodup : addresses.Nodup) (hkeeps : KeepsUp s act) (hn : HoldStep t s act s') :
    Counting n addresses s' := by
  obtain ⟨command, hcommand, hcounts⟩ := h
  obtain ⟨command', port, xp, ended⟩ := s
  obtain rfl : command' = .cmtr command := hcommand
  cases hn with
  | flightloop => exact ⟨_, rfl, hcounts.processFlightloop hnodup _ _ hkeeps⟩
  | @post lock env => exact ⟨_, rfl, hcounts.processPost lock env⟩
  | @term lock env => exact ⟨_, rfl, hcounts.terminate lock env⟩
  | @queue ops =>
    refine ⟨_, rfl, hcounts.addresses_eq, fun a ha => ?_, hcounts.remaining, hcounts.finished,
      hcounts.last, hcounts.working⟩
    exact (congrArg Nat.cast (XpSide.startsOf_execAll ops xp)).trans (hcounts.started a ha)
  | elapse =>
    exact ⟨_, rfl, hcounts.addresses_eq, hcounts.started, hcounts.remaining, hcounts.finished,
      hcounts.last, hcounts.working⟩

/-- **Each entry is started at most n times.**  In every run of a command with `times` = n in which
no cycle becomes due while the last one is held, each entry is begun or triggered at most n times,
and n times when the command finishes by itself.  If a cycle does become due then, it is one too
many. -/
theorem starts_le_times {lib : Library} {address : ℕ → ℕ} {request : Request} {millis : ℤ} {t : ℕ}
    {n : ℤ} (hn : 1 ≤ n) (htimes : parseTimes lib (request.getOption "times" "1") = n) {s : HoldRun}
    (h : ((cmtrSystem lib address request millis t).restrict KeepsUp).Reachable s) {i : ℕ}
    (hi : i < request.parameters.length) :
    (∃ command, s.command = .cmtr command ∧ (s.xp.startsOf (address i) : ℤ) ≤ n ∧
      (command.finishing = true → (s.xp.startsOf (address i) : ℤ) = n)) ∧
    ∀ now findCommand confirm, ¬ KeepsUp s (.flightloop now findCommand confirm) →
      ((s.processFlightloop now findCommand confirm).xp.startsOf (address i) : ℤ) = n + 1 := by
  obtain ⟨⟨command, hcommand, hcounts⟩, hnodup⟩ :
      Counting n ((List.range request.parameters.length).map address) s ∧
        ((List.range request.parameters.length).map address).Nodup := by
    refine h.invariant (fun s hs => hs.counting hn htimes) fun s act s' _ hs hstep => ?_
    exact ⟨hs.1.step hs.2 hstep.1 hstep.2, hs.2⟩
  have hmem : address i ∈ (List.range request.parameters.length).map address :=
    List.mem_map_of_mem (List.mem_range.2 hi)
  have hstarted : (s.xp.startsOf (address i) : ℤ) = n - command.timesRemaining :=
    hcounts.started _ hmem
  refine ⟨⟨command, hcommand, ?_, fun hfinishing => ?_⟩, fun now findCommand confirm hover => ?_⟩
  · have : 0 ≤ command.timesRemaining := hcounts.remaining
    omega
  · have : command.timesRemaining = 0 := hcounts.finished hfinishing
    omega
  · obtain ⟨command', port, xp, ended⟩ := s
    obtain rfl : command' = .cmtr command := hcommand
    exact hcounts.overrun hnodup (not_not.1 hover) findCommand confirm hmem

/-- A request to start one X-Plane command twice, each time for as many frames as `hold` says. -/
def twice (hold repeatFreq : String) : Request where
  channelId := 0
  commandName := bytes "CMTR"
  options := [⟨bytes "times", bytes "2"⟩, ⟨bytes "hold", bytes hold⟩,
    ⟨bytes "repeatFreq", bytes repeatFreq⟩]
  parameters := [bytes "a"]

/-- The command for it, with the task 9. -/
def twiceCommand (duration interval : ℤ) : CommandCmtr where
  channelId := 0
  task := some 9
  monitorMode := .cycle
  requiresTime := false
  interval := interval
  intervalDueTime := 0
  intervalRemainingFrames := 0
  isIntervalFrames := true
  duration := duration
  durationDueTime := 0
  durationRemainingFrames := 0
  isDurationFrames := true
  timesRemaining := 2
  initialized := false
  failed := false
  finishing := false
  holding := false
  entries := [⟨100, bytes "a", false, none⟩]

/-- Nothing else has happened yet. -/
def twiceCreated (duration interval : ℤ) : HoldRun where
  command := .cmtr (twiceCommand duration interval)
  port := ⟨.empty, fun phase => if phase = holdPhase then [9] else [], []⟩
  xp := ⟨⟨false, false, []⟩, [], []⟩
  ended := false

theorem twiceCreated_created {hold repeatFreq : String} {duration interval : ℤ}
    (h : configure Drqv.plainLibrary (· + 100) (twice hold repeatFreq) 0 =
      .ok { twiceCommand duration interval with task := none }) :
    Created Drqv.plainLibrary (· + 100) (twice hold repeatFreq) 0 9
      (twiceCreated duration interval) := by
  refine ⟨rfl, ⟨⟨rfl, rfl, rfl, rfl⟩, rfl, rfl, List.cons_ne_nil _ _, List.nodup_singleton 100,
    fun entry hentry => ?_, fun call hcall => ?_, fun task htask => ?_, ⟨rfl, fun _ => rfl⟩, rfl⟩,
    ⟨_, rfl, h⟩⟩
  · rw [List.mem_singleton.1 hentry]
  · cases hcall
  · cases htask

/-- A flight loop in which all is well. -/
def frame (s : HoldRun) : HoldRun := s.processFlightloop 0 (fun _ => some 7) .none

/-- With a hold of two frames and a cycle in each frame, the third flight loop finds the second and
last cycle held when the next one is due: the X-Plane command is begun three times. -/
theorem starts_exceed_times :
    (cmtrSystem Drqv.plainLibrary (· + 100) (twice "2f" "1f") 0 9).Reachable
        (frame (frame (frame (twiceCreated 2 1)))) ∧
      parseTimes Drqv.plainLibrary ((twice "2f" "1f").getOption "times" "1") = 2 ∧
      ¬ (frame (frame (frame (twiceCreated 2 1)))).xp.startsOf 100 ≤ 2 := by
  have hcreated : Created Drqv.plainLibrary (· + 100) (twice "2f" "1f") 0 9 (twiceCreated 2 1) :=
    twiceCreated_created (by rfl)
  have h₁ :=
    (System.Reachable.start (M := cmtrSystem Drqv.plainLibrary (· + 100) (twice "2f" "1f") 0 9)
    hcreated).step (HoldAct.flightloop 0 (fun _ => some 7) .none) (HoldStep.flightloop (by decide))
  have h₂ := h₁.step (HoldAct.flightloop 0 (fun _ => some 7) .none)
      (HoldStep.flightloop (by decide))
  have h₃ := h₂.step (HoldAct.flightloop 0 (fun _ => some 7) .none)
      (HoldStep.flightloop (by decide))
  exact ⟨h₃, by decide +kernel, by decide +kernel⟩

/-- With a hold of one frame and a cycle in every other frame, the command finishes with the fourth
flight loop, and the X-Plane command has been begun twice. -/
theorem starts_le_times_of_short_hold :
    (frame (frame (frame (frame (twiceCreated 1 2))))).xp.startsOf 100 = 2 := by
  have hcreated : Created Drqv.plainLibrary (· + 100) (twice "1f" "2f") 0 9 (twiceCreated 1 2) :=
    twiceCreated_created (by rfl)
  have hallowed : ∀ {s : HoldRun} {command : CommandCmtr}, s.command = .cmtr command →
      ¬ Overruns 0 command → KeepsUp s (.flightloop 0 (fun _ => some 7) .none) := by
    intro s command hcommand hkeeps
    unfold KeepsUp
    rw [hcommand]
    exact hkeeps
  have h₀ :
      ((cmtrSystem Drqv.plainLibrary (· + 100) (twice "1f" "2f") 0 9).restrict KeepsUp).Reachable
      (twiceCreated 1 2) := .start hcreated
  have h₁ := h₀.allowed (HoldAct.flightloop 0 (fun _ => some 7) .none)
    (hallowed rfl (by decide +kernel)) (HoldStep.flightloop (by decide))
  have h₂ := h₁.allowed (HoldAct.flightloop 0 (fun _ => some 7) .none)
    (hallowed rfl (by decide +kernel)) (HoldStep.flightloop (by decide))
  have h₃ := h₂.allowed (HoldAct.flightloop 0 (fun _ => some 7) .none)
    (hallowed rfl (by decide +kernel)) (HoldStep.flightloop (by decide))
  have h₄ := h₃.allowed (HoldAct.flightloop 0 (fun _ => some 7) .none)
    (hallowed rfl (by decide +kernel)) (HoldStep.flightloop (by decide))
  obtain ⟨⟨command, hcommand, -, hfinished⟩, -⟩ := starts_le_times (n := 2) (i := 0) (by decide)
    (by decide +kernel) h₄ (by decide)
  obtain rfl := HoldCommand.cmtr.inj hcommand
  exact Int.ofNat.inj (hfinished (by decide +kernel))

end Cmtr

end XprcServer
