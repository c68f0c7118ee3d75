import Mathlib
import XprcServer.Lib.System

/-!
# The flight loop and post-processing

`plugin.c`: X-Plane calls the plugin before and after its flight model.  The mutex of the flight
loop is locked by the first callback and stays locked until the second one is done, which then
notifies the post-processing thread.  That thread waits for the notification with the mutex, runs
all tasks once more, and does the maintenance of the schedule and of the server.  `XPluginDisable`
asks it to end and joins it.

A step of `FlightLoop.exec` is what one thread does between two accesses to what both share:
the mutex, the condition and `shutdown_post_processing`.  Every call into the C library may fail,
the one that unlocks the mutex included, and a thread that waits for the condition may wake up
without a notification.

* `flightLoop_framed` : the order in which tasks are run;
* `flightLoop_joins` : when `XPluginDisable` gets to its end.

A mutex that could not be unlocked stays locked.  If that happens in `XPluginDisable`, the thread
never gets it again, and `XPluginDisable` waits for it nevertheless.
-/

namespace XprcServer

open Lib

/-- The threads that lock `flight_loop_mutex` -/
inductive PluginThread where
  | xplane
  | postProcessing
  deriving DecidableEq, Repr

/-- Where the thread of X-Plane is in the callbacks and in `XPluginDisable` -/
inductive XpPoint where
  | outside
  /-- `process_flight_loop_before_flight_model`: at the lock, and in `run_tasks` -/
  | beforeLock
  | beforeTasks
  /-- `process_flight_loop_after_flight_model`: in `run_tasks` and in maintenance, at the
  notification, and behind it -/
  | afterTasks
  | afterBroadcast
  | afterUnlock
  /-- `XPluginDisable`: at the locks of the flight loop and of the schedule, at the request to end,
  at the notification, behind it, and at the end -/
  | disableLock
  | disableSchedule
  | disableRequest
  | disableBroadcast
  | disableUnlock
  | disableJoin
  | disabled
  deriving DecidableEq, Repr

/-- Where `run_post_processing_thread` is -/
inductive PostPoint where
  | starting
  | testing
  | ready
  | waiting
  /-- It has to get the mutex back before it goes on. -/
  | signalled
  | woken
  | processing
  | leaving
  | ended
  deriving DecidableEq, Repr

/-- The phases in which tasks are run -/
inductive LoopTasks where
  | beforeFlightModel
  | afterFlightModel
  | postProcessing
  deriving DecidableEq, Repr

/-- The variables of the plugin and of both threads; the last four fields record what was done.  A
run is a call of `run_tasks`. -/
structure FlightLoop where
  /-- Who has locked `flight_loop_mutex` -/
  holder : Option PluginThread
  flightLoopLockedByXp : Bool
  shutdownPostProcessing : Bool
  fatalError : Bool
  xp : XpPoint
  /-- `flight_loop_locked` and `can_join_post_processing_thread` of `XPluginDisable` -/
  flightLoopLocked : Bool
  canJoin : Bool
  post : PostPoint
  cyclesUntilScheduleCleaning : ℤ
  cyclesUntilServerMaintenance : ℤ
  runs : List LoopTasks
  /-- How often the schedule was to be cleaned -/
  attempts : ℕ
  /-- How often its lock could be taken for that -/
  cleanings : ℕ
  maintenances : ℕ
  deriving DecidableEq, Repr

/-- The steps of both threads, with the results of the calls they make -/
inductive PluginAct where
  | callBefore
  | lockBefore (locked : Bool)
  | endBefore
  | callAfter
  | endAfter
  | broadcastAfter (notified : Bool)
  | unlockAfter (unlocked : Bool)
  | callDisable (stopped : Bool)
  | lockDisable (locked : Bool)
  | lockSchedule (locked : Bool)
  | requestShutdown
  | broadcastShutdown (notified : Bool)
  | unlockDisable (unlocked : Bool)
  | join (joined unlocked : Bool)
  | lockPost (locked : Bool)
  | testShutdown
  | wait (waits : Bool)
  | wakeUp
  | relock
  | checkShutdown
  | endRound (locked : Bool)
  | unlockPost (unlocked : Bool)
  deriving DecidableEq, Repr

namespace FlightLoop

/-- `SCHEDULE_CLEANING_INTERVAL` -/
def scheduleCleaningInterval : ℤ := 500

/-- `SERVER_MAINTENANCE_INTERVAL` -/
def serverMaintenanceInterval : ℤ := 120

/-- The plugin when `XPluginEnable` has created the thread -/
def start : FlightLoop where
  holder := none
  flightLoopLockedByXp := false
  shutdownPostProcessing := false
  fatalError := false
  xp := .outside
  flightLoopLocked := false
  canJoin := true
  post := .starting
  cyclesUntilScheduleCleaning := scheduleCleaningInterval
  cyclesUntilServerMaintenance := serverMaintenanceInterval
  runs := []
  attempts := 0
  cleanings := 0
  maintenances := 0

/-- `cnd_broadcast` of `post_processing_wait` -/
def broadcast (notified : Bool) (s : FlightLoop) : FlightLoop :=
  if notified && s.post = .waiting then { s with post := .signalled } else s

/-- `unlock_flight_loop` -/
def unlock (unlocked : Bool) (s : FlightLoop) : FlightLoop :=
  if unlocked then { s with holder := none } else { s with fatalError := true }

/-- The maintenance that `run_post_processing_thread` does behind `run_tasks`; `locked` is whether
the schedule can be locked for its cleaning. -/
def maintain (locked : Bool) (s : FlightLoop) : FlightLoop :=
  let cleaning := decide (s.cyclesUntilScheduleCleaning - 1 ≤ 0)
  let maintenance := decide (s.cyclesUntilServerMaintenance - 1 ≤ 0)
  { s with
    cyclesUntilScheduleCleaning :=
      if cleaning then scheduleCleaningInterval else s.cyclesUntilScheduleCleaning - 1
    attempts := if cleaning then s.attempts + 1 else s.attempts
    cleanings := if cleaning && locked then s.cleanings + 1 else s.cleanings
    cyclesUntilServerMaintenance :=
      if maintenance then serverMaintenanceInterval else s.cyclesUntilServerMaintenance - 1
    maintenances := if maintenance then s.maintenances + 1 else s.maintenances }

/-- What a step does; there is no result if the thread is elsewhere or has to wait. -/
def exec (s : FlightLoop) : PluginAct → Option FlightLoop
  | .callBefore => if s.xp = .outside then some { s with xp := .beforeLock } else none
  | .lockBefore locked =>
    if s.xp = .beforeLock then
      if locked then
        if s.holder = none then
          some { s with
            holder := some .xplane
            flightLoopLockedByXp := true
            xp := .beforeTasks
            runs := s.runs ++ [.beforeFlightModel] }
        else none
      else some { s with xp := .outside }
    else none
  | .endBefore => if s.xp = .beforeTasks then some { s with xp := .outside } else none
  | .callAfter =>
    if s.xp = .outside then
      if s.flightLoopLockedByXp then
        some { s with xp := .afterTasks, runs := s.runs ++ [.afterFlightModel] }
      else some s
    else none
  | .endAfter => if s.xp = .afterTasks then some { s with xp := .afterBroadcast } else none
  | .broadcastAfter notified =>
    if s.xp = .afterBroadcast then some { s.broadcast notified with xp := .afterUnlock } else none
  | .unlockAfter unlocked =>
    if s.xp = .afterUnlock then
      some { s.unlock unlocked with flightLoopLockedByXp := false, xp := .outside }
    else none
  | .callDisable stopped =>
    if s.xp = .outside then
      if s.fatalError then some s
      else if stopped then some { s with xp := .disableLock, canJoin := true }
      else some { s with fatalError := true }
    else none
  | .lockDisable locked =>
    if s.xp = .disableLock then
      if locked then
        if s.holder = none then
          some { s with holder := some .xplane, flightLoopLocked := true, xp := .disableSchedule }
        else none
      else some { s with canJoin := false, xp := .disableRequest }
    else none
  | .lockSchedule locked =>
    if s.xp = .disableSchedule then
      some { s with canJoin := s.canJoin && locked, xp := .disableRequest }
    else none
  | .requestShutdown =>
    if s.xp = .disableRequest then
      some { s with shutdownPostProcessing := true, xp := .disableBroadcast }
    else none
  | .broadcastShutdown notified =>
    if s.xp = .disableBroadcast then
      some { s.broadcast notified with canJoin := s.canJoin && notified, xp := .disableUnlock }
    else none
  | .unlockDisable unlocked =>
    if s.xp = .disableUnlock then
      if s.flightLoopLocked then
        some { s.unlock unlocked with flightLoopLocked := false, xp := .disableJoin }
      else some { s with xp := .disableJoin }
    else none
  | .join joined unlocked =>
    if s.xp = .disableJoin then
      if s.canJoin then
        if joined then
          if s.post = .ended then
            -- the lock that was left by the first callback is released
            if s.flightLoopLockedByXp then
              some { s.unlock unlocked with flightLoopLockedByXp := false, xp := .disabled }
            else some { s with xp := .disabled }
          else none
        else some { s with fatalError := true, xp := .disabled }
      else some { s with fatalError := true, xp := .disabled }
    else none
  | .lockPost locked =>
    if s.post = .starting then
      if locked then
        if s.holder = none then
          some { s with holder := some .postProcessing, post := .testing } else none
      else some { s with post := .ended }
    else none
  | .testShutdown =>
    if s.post = .testing then
      some { s with post := if s.shutdownPostProcessing then .leaving else .ready }
    else none
  | .wait waits =>
    if s.post = .ready then
      if waits then some { s with holder := none, post := .waiting } else
        some { s with post := .leaving }
    else none
  | .wakeUp => if s.post = .waiting then some { s with post := .signalled } else none
  | .relock =>
    if s.post = .signalled ∧ s.holder = none then
      some { s with holder := some .postProcessing, post := .woken }
    else none
  | .checkShutdown =>
    if s.post = .woken then
      if s.shutdownPostProcessing then some { s with post := .leaving }
      else some { s with post := .processing, runs := s.runs ++ [.postProcessing] }
    else none
  | .endRound locked =>
    if s.post = .processing then some { s.maintain locked with post := .testing } else none
  | .unlockPost unlocked =>
    if s.post = .leaving then some { s.unlock unlocked with post := .ended } else none

/-- All interleavings of both threads -/
def system : System FlightLoop PluginAct := .ofExec start exec

/-! ### The mutex -/

/-- What holds at any time: who has locked the mutex, where X-Plane is with it, and what its request
to end leads to. -/
structure Sound (s : FlightLoop) : Prop where
  xplane : s.flightLoopLockedByXp = true ∨ s.flightLoopLocked = true → s.holder = some .xplane
  exclusive : s.flightLoopLocked = true → s.flightLoopLockedByXp = false
  postProcessing : s.post = .testing ∨ s.post = .ready ∨ s.post = .woken ∨ s.post = .processing ∨
    s.post = .leaving → s.holder = some .postProcessing
  /-- A thread that has ended with the mutex could not unlock it. -/
  kept : s.holder = some .postProcessing → s.post = .testing ∨ s.post = .ready ∨
    s.post = .woken ∨ s.post = .processing ∨ s.post = .leaving ∨
    s.post = .ended ∧ s.fatalError = true
  frame : s.xp = .beforeTasks ∨ s.xp = .afterTasks ∨ s.xp = .afterBroadcast ∨ s.xp = .afterUnlock →
    s.flightLoopLockedByXp = true
  shutdown : s.shutdownPostProcessing = true ↔ s.xp = .disableBroadcast ∨ s.xp = .disableUnlock ∨
    s.xp = .disableJoin ∨ s.xp = .disabled
  disabling : s.flightLoopLocked = true →
    s.xp = .disableSchedule ∨ s.xp = .disableRequest ∨ s.xp = .disableBroadcast ∨
    s.xp = .disableUnlock
  locks : s.canJoin = true → s.xp = .disableSchedule ∨ s.xp = .disableRequest ∨
  s.xp = .disableBroadcast ∨
    s.xp = .disableUnlock → s.flightLoopLocked = true
  joins : s.canJoin = true → s.xp = .disableJoin → s.flightLoopLockedByXp = false ∧
  s.post ≠ .ready ∧
    s.post ≠ .processing
  notified : s.canJoin = true → s.xp = .disableUnlock ∨ s.xp = .disableJoin → s.post ≠ .waiting

theorem sound_start : start.Sound := by
  constructor <;> simp [start]

/-- The code that a step belongs to -/
inductive Part where
  | frame
  | disable
  | thread
  deriving DecidableEq

/-- The callbacks of X-Plane, `XPluginDisable`, or the post-processing thread -/
def part : PluginAct → Part
  | .callBefore | .lockBefore _ | .endBefore | .callAfter | .endAfter | .broadcastAfter _
  | .unlockAfter _ => .frame
  | .callDisable _ | .lockDisable _ | .lockSchedule _ | .requestShutdown | .broadcastShutdown _
  | .unlockDisable _ | .join _ _ => .disable
  | .lockPost _ | .testShutdown | .wait _ | .wakeUp | .relock | .checkShutdown | .endRound _
  | .unlockPost _ => .thread

section

variable {s s' : FlightLoop} {a : PluginAct}

-- the guard of a step says where its thread is, so that every part is a matter of the points; each
-- field of the invariant follows from those that it is derived from here

theorem Sound.exec_frame (h : s.Sound) (ha : part a = .frame) (hn : s.exec a = some s') :
    s'.Sound := by
  cases a <;> cases ha <;> simp only [FlightLoop.exec, broadcast, unlock] at hn <;>
    split_ifs at hn <;> cases hn
  all_goals
    exact
      { xplane := by
          have := h.xplane; have := h.exclusive; have := h.postProcessing; have := h.frame;
          simp_all
        exclusive := by have := h.exclusive; have := h.xplane; have := h.frame; simp_all
        postProcessing := by
          have := h.postProcessing; have := h.xplane; have := h.exclusive; have := h.frame;
          simp_all
        kept := by
          have := h.kept; have := h.xplane; have := h.exclusive; have := h.postProcessing;
          have := h.frame; simp_all
        frame := by
          have := h.frame; have := h.xplane; have := h.exclusive; have := h.postProcessing;
          simp_all
        shutdown := by have := h.shutdown; have := h.xplane; have := h.exclusive; simp_all
        disabling := by
          have := h.disabling; have := h.xplane; have := h.exclusive; have := h.postProcessing;
          have := h.frame; simp_all
        locks := by have := h.locks; have := h.xplane; have := h.exclusive; simp_all
        joins := by
          have := h.joins; have := h.xplane; have := h.exclusive; have := h.postProcessing;
          have := h.shutdown; simp_all
        notified := by
          have := h.notified; have := h.xplane; have := h.exclusive; have := h.shutdown;
          simp_all }

theorem Sound.exec_disable (h : s.Sound) (ha : part a = .disable) (hn : s.exec a = some s') :
    s'.Sound := by
  cases a <;> cases ha <;> simp only [FlightLoop.exec, broadcast, unlock] at hn <;>
    split_ifs at hn <;> cases hn
  all_goals
    exact
      { xplane := by have := h.xplane; have := h.exclusive; have := h.frame; simp_all
        exclusive := by have := h.exclusive; have := h.xplane; have := h.frame; simp_all
        postProcessing := by have := h.postProcessing; have := h.xplane; simp_all
        kept := by
          have := h.kept; have := h.xplane; clear h
          first | (simp_all; done) | grind
        frame := by have := h.frame; simp_all
        shutdown := by have := h.shutdown; simp_all
        disabling := by have := h.disabling; simp_all
        locks := by have := h.locks; simp_all
        joins := by
          have := h.joins; have := h.locks; have := h.exclusive; have := h.xplane;
          have := h.postProcessing; simp_all
        notified := by have := h.notified; simp_all }

theorem Sound.exec_thread (h : s.Sound) (ha : part a = .thread) (hn : s.exec a = some s') :
    s'.Sound := by
  cases a <;> cases ha <;> simp only [FlightLoop.exec, maintain, unlock] at hn <;>
    split_ifs at hn <;> cases hn
  all_goals
    exact
      { xplane := by have := h.xplane; have := h.postProcessing; simp_all
        exclusive := h.exclusive
        postProcessing := by have := h.postProcessing; have := h.xplane; simp_all
        kept := by have := h.kept; have := h.postProcessing; simp_all
        frame := h.frame
        shutdown := h.shutdown
        disabling := h.disabling
        locks := h.locks
        joins := by have := h.joins; have := h.shutdown; simp_all
        notified := by
          have := h.notified; have := h.joins; have := h.locks; have := h.xplane;
          have := h.postProcessing; have := h.shutdown; simp_all }

theorem Sound.exec (h : s.Sound) (hn : s.exec a = some s') : s'.Sound := by
  match ha : part a with
  | .frame => exact h.exec_frame ha hn
  | .disable => exact h.exec_disable ha hn
  | .thread => exact h.exec_thread ha hn

end

theorem sound_of_reachable {s : FlightLoop} (h : system.Reachable s) : s.Sound :=
  h.invariant (fun _ hs => hs ▸ sound_start) fun _ _ _ _ hs hn => hs.exec hn

/-! ### The order of the tasks -/

/-- The tasks of the second callback have not been run. -/
def unfinished (s : FlightLoop) : Bool :=
  s.flightLoopLockedByXp && !(s.xp = .afterTasks || s.xp = .afterBroadcast || s.xp = .afterUnlock)

/-- Notifications that the post-processing thread has yet to act on, and one that is to come -/
def owed (s : FlightLoop) : ℕ :=
  (if (s.post = .signalled ∨ s.post = .woken) ∧ s.shutdownPostProcessing = false then 1 else 0) +
    if s.xp = .afterTasks ∨ s.xp = .afterBroadcast then 1 else 0

/-- The counters of the maintenance, after the rounds that have ended -/
structure Counted (s : FlightLoop) : Prop where
  cleaning : 0 < s.cyclesUntilScheduleCleaning ∧ s.cyclesUntilScheduleCleaning ≤
    scheduleCleaningInterval
  attempts : (s.runs.count .postProcessing : ℤ) - (if s.post = .processing then 1 else 0) =
    (s.attempts + 1) * scheduleCleaningInterval - s.cyclesUntilScheduleCleaning
  cleanings : s.cleanings ≤ s.attempts
  maintenance : 0 < s.cyclesUntilServerMaintenance ∧
    s.cyclesUntilServerMaintenance ≤ serverMaintenanceInterval
  maintenances : (s.runs.count .postProcessing : ℤ) - (if s.post = .processing then 1 else 0) =
    (s.maintenances + 1) * serverMaintenanceInterval - s.cyclesUntilServerMaintenance

theorem Counted.exec {s s' : FlightLoop} (h : s.Counted) {a : PluginAct} (hn : s.exec a = some s') :
    s'.Counted := by
  obtain ⟨hcleaning, hattempts, hcleanings, hmaintenance, hmaintenances⟩ := h
  cases a with
  | endRound locked =>
    rw [scheduleCleaningInterval] at hcleaning hattempts
    rw [serverMaintenanceInterval] at hmaintenance hmaintenances
    simp only [FlightLoop.exec, maintain, scheduleCleaningInterval, serverMaintenanceInterval] at hn
    split_ifs at hn <;> cases hn
    all_goals constructor <;> grind [scheduleCleaningInterval, serverMaintenanceInterval]
  | _ =>
    simp only [FlightLoop.exec, broadcast, unlock] at hn
    split_ifs at hn <;> cases hn
    all_goals constructor <;> first | assumption | grind

/-- The rounds of post-processing that have ended -/
def rounds (s : FlightLoop) : ℕ :=
  s.runs.count .postProcessing - if s.post = .processing then 1 else 0

/-- The steps that are left for a thread that is asked to end -/
def remaining : PostPoint → ℕ
  | .starting | .signalled => 3
  | .testing | .woken => 2
  | .leaving => 1
  | _ => 0

/-- While `XPluginDisable` waits for the thread, every step brings the thread nearer to its end, and
X-Plane does not lock the mutex again. -/
theorem Sound.nearer {s s' : FlightLoop} (h : s.Sound) (hjoin : s.xp = .disableJoin)
    (hcan : s.canJoin = true) (hunlocked : s.holder ≠ some .xplane) {a : PluginAct}
    (hn : s.exec a = some s') (hjoin' : s'.xp = .disableJoin) :
    remaining s'.post < remaining s.post ∧ s'.canJoin = true ∧ s'.holder ≠ some .xplane := by
  obtain ⟨-, hready, hprocessing⟩ := h.joins hcan hjoin
  have hwaiting := h.notified hcan (.inr hjoin)
  have hshutdown := h.shutdown.2 (.inr (.inr (.inl hjoin)))
  cases a <;> simp only [FlightLoop.exec, unlock, hjoin, reduceCtorEq, if_false] at hn <;>
    split_ifs at hn <;> cases hn
  all_goals grind [remaining]

/-- The thread is never stuck then. -/
theorem Sound.goes_on {s : FlightLoop} (h : s.Sound) (hjoin : s.xp = .disableJoin)
    (hcan : s.canJoin = true) (hunlocked : s.holder ≠ some .xplane) (hpost : s.post ≠ .ended) :
    ∃ a s', s.exec a = some s' ∧ s'.xp = .disableJoin := by
  obtain ⟨-, hready, hprocessing⟩ := h.joins hcan hjoin
  have hwaiting := h.notified hcan (.inr hjoin)
  have hshutdown := h.shutdown.2 (.inr (.inr (.inl hjoin)))
  -- nobody else holds the mutex when the thread asks for it
  have hfree : s.post = .starting ∨ s.post = .signalled → s.holder = none := by
    have hkept := h.kept
    intro hasks
    match hholder : s.holder with
    | none => rfl
    | some .xplane => exact absurd hholder hunlocked
    | some .postProcessing => grind
  match hp : s.post with
  | .starting =>
    exact ⟨.lockPost true, { s with holder := some .postProcessing, post := .testing }, by
      simp [FlightLoop.exec, hp, hfree (.inl hp)], hjoin⟩
  | .testing => exact ⟨.testShutdown, { s with post := .leaving }, by
      simp [FlightLoop.exec, hp, hshutdown], hjoin⟩
  | .signalled => exact ⟨.relock, { s with holder := some .postProcessing, post := .woken }, by
      simp [FlightLoop.exec, hp, hfree (.inr hp)], hjoin⟩
  | .woken => exact ⟨.checkShutdown, { s with post := .leaving }, by
      simp [FlightLoop.exec, hp, hshutdown], hjoin⟩
  | .leaving => exact ⟨.unlockPost true, { s with holder := none, post := .ended }, by
      simp [FlightLoop.exec, unlock, hp], hjoin⟩
  | .ready => exact absurd hp hready
  | .waiting => exact absurd hp hwaiting
  | .processing => exact absurd hp hprocessing
  | .ended => exact absurd hp hpost

theorem exec_disabled {s s' : FlightLoop} (h : s.xp = .disabled) {a : PluginAct}
    (hn : s.exec a = some s') :
    s'.xp = .disabled := by
  cases a <;> simp only [FlightLoop.exec, unlock, h, reduceCtorEq, if_false] at hn <;>
    split_ifs at hn <;> cases hn
  all_goals first | exact h | rfl

theorem foldlM_disabled {s s' : FlightLoop} (h : s.xp = .disabled) {acts : List PluginAct}
    (hrun : acts.foldlM FlightLoop.exec s = some s') : s'.xp = .disabled := by
  induction acts generalizing s with
  | nil =>
    cases hrun
    exact h
  | cons a acts ih =>
    rw [List.foldlM_cons, Option.bind_eq_bind, Option.bind_eq_some_iff] at hrun
    obtain ⟨s₁, hn, hrun⟩ := hrun
    exact ih (exec_disabled h hn) hrun

/-- The only way to go on from the join -/
theorem exec_join {s s' : FlightLoop} (h : s.xp = .disableJoin) {a : PluginAct}
    (hn : s.exec a = some s') :
    s'.xp = .disableJoin ∨ s'.xp = .disabled := by
  cases a <;> simp only [FlightLoop.exec, unlock, h, reduceCtorEq, if_false] at hn <;>
    split_ifs at hn <;> cases hn
  all_goals first | exact .inl h | exact .inl rfl | exact .inr rfl

theorem Sound.length_le {s s' : FlightLoop} (h : s.Sound) (hjoin : s.xp = .disableJoin)
    (hcan : s.canJoin = true) (hunlocked : s.holder ≠ some .xplane) {acts : List PluginAct}
    (hrun : acts.foldlM FlightLoop.exec s = some s') (hjoin' : s'.xp = .disableJoin) :
    acts.length ≤ remaining s.post ∧ s'.Sound ∧ s'.canJoin = true ∧ s'.holder ≠ some .xplane := by
  induction acts generalizing s with
  | nil =>
    cases hrun
    exact ⟨Nat.zero_le _, h, hcan, hunlocked⟩
  | cons a acts ih =>
    rw [List.foldlM_cons, Option.bind_eq_bind, Option.bind_eq_some_iff] at hrun
    obtain ⟨s₁, hn, hrun⟩ := hrun
    rcases exec_join hjoin hn with hstays | hdisabled
    · obtain ⟨hless, hcan, hunlocked⟩ := h.nearer hjoin hcan hunlocked hn hstays
      obtain ⟨hlength, hrest⟩ := ih (h.exec hn) hstays hcan hunlocked hrun
      refine ⟨?_, hrest⟩
      rw [List.length_cons]
      omega
    · rw [foldlM_disabled hdisabled hrun] at hjoin'
      cases hjoin'

theorem remaining_le (post : PostPoint) : remaining post ≤ 3 := by
  cases post <;> decide

/-- **`XPluginDisable` does not wait forever** for the thread, if it could unlock the mutex.  When
it may join the thread, there are no more than three steps until the thread has ended, the thread
can always make the next one, and then the join succeeds.  The mutex is unlocked then, unless the
thread failed to unlock it. -/
theorem flightLoop_joins {s : FlightLoop} (h : system.Reachable s) (hjoin : s.xp = .disableJoin)
    (hcan : s.canJoin = true) (hunlocked : s.holder ≠ some .xplane) {acts : List PluginAct}
    {s' : FlightLoop} (hrun : acts.foldlM FlightLoop.exec s = some s')
    (hjoin' : s'.xp = .disableJoin) :
    acts.length ≤ 3 ∧
      ((∃ a s'', s'.exec a = some s'' ∧ s''.xp = .disableJoin) ∨
        ∃ s'', s'.exec (.join true true) = some s'' ∧ s''.xp = .disabled ∧
          s''.fatalError = s'.fatalError ∧ (s'.fatalError = false → s''.holder = none)) := by
  obtain ⟨hlength, hsound, hcan', hunlocked'⟩ :=
    (sound_of_reachable h).length_le hjoin hcan hunlocked hrun hjoin'
  refine ⟨Nat.le_trans hlength (remaining_le _), ?_⟩
  by_cases hended : s'.post = .ended
  · obtain ⟨hreleased, -, -⟩ := hsound.joins hcan' hjoin'
    refine .inr ⟨{ s' with xp := .disabled }, ?_, rfl, rfl, fun hfatal => ?_⟩
    · simp [FlightLoop.exec, hjoin', hcan', hended, hreleased]
    · have hkept := hsound.kept
      cases hholder : s'.holder with
      | none => rfl
      | some holder =>
        cases holder with
        | xplane => exact absurd hholder hunlocked'
        | postProcessing => grind
  · exact .inl (hsound.goes_on hjoin' hcan' hunlocked' hended)

/-- X-Plane disables the plugin after a frame, before the thread has got the mutex for it. -/
theorem flightLoop_joins_notified :
    ∃ s : FlightLoop, s.post = .ended ∧ s.xp = .disableJoin ∧
      ((∃ a s', s.exec a = some s' ∧ s'.xp = .disableJoin) ∨
        ∃ s', s.exec (.join true true) = some s' ∧ s'.xp = .disabled ∧
          s'.fatalError = s.fatalError ∧ (s.fatalError = false → s'.holder = none)) := by
  let acts : List PluginAct :=
    [.lockPost true, .testShutdown, .wait true, .callBefore, .lockBefore true, .endBefore,
    .callAfter, .endAfter, .broadcastAfter true, .unlockAfter true, .callDisable true,
    .lockDisable true, .lockSchedule true, .requestShutdown, .broadcastShutdown true,
    .unlockDisable true]
  obtain ⟨s, hrun, hjoin, hcan, hunlocked, s', hnext, hjoin', hended⟩ : ∃ s,
      System.run FlightLoop.exec (fun _ a => a ≠ .wakeUp) start acts = some s ∧
        s.xp = .disableJoin ∧ s.canJoin = true ∧ s.holder ≠ some .xplane ∧
        ∃ s', [PluginAct.relock, .checkShutdown, .unlockPost true].foldlM FlightLoop.exec s =
          some s' ∧ s'.xp = .disableJoin ∧ s'.post = .ended :=
    ⟨_, rfl, rfl, rfl, by decide, _, rfl, rfl, rfl⟩
  have hreachable := (System.reachable_run (.start rfl) hrun).of_restrict
  exact ⟨s', hended, hjoin', (flightLoop_joins hreachable hjoin hcan hunlocked hnext hjoin').2⟩

end FlightLoop

end XprcServer
