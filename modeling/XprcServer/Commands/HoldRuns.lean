import XprcServer.Commands.Cmtr
import XprcServer.Commands.Cmhd

/-!
# Runs of the commands that hold X-Plane commands

A CMTR or CMHD command in its surroundings: flight loops and post-processing run its task as long
as it is scheduled, it can be terminated at any time, by a request or because its session ends, and
the flight loop flushes the queue of X-Plane calls, which other commands use as well.  Others may
also use the queue while a termination is under way; terminations of the same command follow one
another here.

* `HoldStep.sound` : every step keeps the entries in step with X-Plane, and the task with the
  schedule.
-/

namespace XprcServer

open Lib

/-- A command that holds X-Plane commands. -/
inductive HoldCommand where
  | cmtr (command : CommandCmtr)
  | cmhd (command : CommandCmhd)
  deriving DecidableEq, Repr

namespace HoldCommand

/-- The task of the command. -/
def task : HoldCommand → Option ℕ
  | cmtr command => command.task
  | cmhd command => command.task

/-- The entries of the command. -/
def entries : HoldCommand → List HoldEntry
  | cmtr command => command.entries
  | cmhd command => command.entries

/-- The channel of the command. -/
def channelId : HoldCommand → ChannelId
  | cmtr command => command.channelId
  | cmhd command => command.channelId

/-- The command starts without anything found or held, and with at least one entry. -/
def Fresh : HoldCommand → Prop
  | cmtr command => command.initialized = false ∧ command.failed = false ∧
      command.finishing = false ∧ command.holding = false
  | cmhd command => command.initialized = false ∧ command.failed = false

end HoldCommand

/-- The phase in which the tasks of both commands run. -/
def holdPhase : TaskSchedulePhase := .beforeFlightModel

/-- A command and what it works on; `ended` says that a termination has returned `ERROR_NONE`. -/
structure HoldRun where
  command : HoldCommand
  port : Port
  xp : XpSide
  ended : Bool

namespace HoldRun

/-- `terminate` of the command -/
def terminate (lock : ErrorCode) (env : HoldEntry.ReleaseEnv) (s : HoldRun) : ErrorCode × HoldRun :=
  match s.command with
  | .cmtr command =>
    let r := Cmtr.terminate lock env ⟨command, s.port, s.xp⟩
    (r.1, ⟨.cmtr r.2.command, r.2.port, r.2.xp, s.ended || r.1 = .none⟩)
  | .cmhd command =>
    let r := Cmhd.terminate lock env ⟨command, s.port, s.xp⟩
    (r.1, ⟨.cmhd r.2.command, r.2.port, r.2.xp, s.ended || r.1 = .none⟩)

/-- The task of the command in a flight loop. -/
def processFlightloop (millis : ℤ) (findCommand : List UInt8 → Option ℕ) (confirm : ErrorCode)
    (s : HoldRun) : HoldRun :=
  match s.command with
  | .cmtr command =>
    let r := Cmtr.processFlightloop millis findCommand confirm ⟨command, s.port, s.xp⟩
    { s with command := .cmtr r.command, port := r.port, xp := r.xp }
  | .cmhd command =>
    let r := Cmhd.processFlightloop findCommand confirm ⟨command, s.port, s.xp⟩
    { s with command := .cmhd r.command, port := r.port, xp := r.xp }

/-- The task of the command in post-processing. -/
def processPost (lock : ErrorCode) (env : HoldEntry.ReleaseEnv) (s : HoldRun) : HoldRun :=
  match s.command with
  | .cmtr command =>
    let r := Cmtr.processPost lock env ⟨command, s.port, s.xp⟩
    ⟨.cmtr r.2.command, r.2.port, r.2.xp, s.ended || r.1 = some .none⟩
  | .cmhd command =>
    let r := Cmhd.processPost lock env ⟨command, s.port, s.xp⟩
    ⟨.cmhd r.2.command, r.2.port, r.2.xp, s.ended || r.1 = some .none⟩

/-- What a successful creation leaves: the task `t` is scheduled, no entry is held, and nothing was
called or queued for the entries yet. -/
structure Created (t : ℕ) (s : HoldRun) : Prop where
  fresh : s.command.Fresh
  task : s.command.task = some t
  scheduled : (s.port.queues holdPhase).count t = 1
  nonempty : s.command.entries ≠ []
  nodup : (s.command.entries.map HoldEntry.address).Nodup
  released : ∀ entry ∈ s.command.entries, entry.held = false
  calls : ∀ call ∈ s.xp.calls, call.entry = none
  queue : ∀ task ∈ s.xp.queue.list, task.entry = none
  delivers : s.xp.Delivers
  ended : s.ended = false

end HoldRun

/-- What can happen.  A termination is asked for by a request or by the end of the session; here
they are taken as a whole, as if no two of them were under way at the same time. -/
inductive HoldAct where
  | flightloop (millis : ℤ) (findCommand : List UInt8 → Option ℕ) (confirm : ErrorCode)
  | post (lock : ErrorCode) (env : HoldEntry.ReleaseEnv)
  | term (lock : ErrorCode) (env : HoldEntry.ReleaseEnv)
  | queue (ops : List XpqueueOp)
  | elapse (port : Port)

/-- The steps.  The task runs only while it is scheduled; others leave it scheduled as it is. -/
inductive HoldStep (t : ℕ) : HoldRun → HoldAct → HoldRun → Prop
  | flightloop {s : HoldRun} {millis : ℤ} {findCommand : List UInt8 → Option ℕ}
      {confirm : ErrorCode} (h : t ∈ s.port.queues holdPhase) :
      HoldStep t s (.flightloop millis findCommand confirm)
        (s.processFlightloop millis findCommand confirm)
  | post {s : HoldRun} {lock : ErrorCode} {env : HoldEntry.ReleaseEnv}
      (h : t ∈ s.port.queues holdPhase) :
      HoldStep t s (.post lock env) (s.processPost lock env)
  | term {s : HoldRun} {lock : ErrorCode} {env : HoldEntry.ReleaseEnv} :
      HoldStep t s (.term lock env) (s.terminate lock env).2
  | queue {s : HoldRun} {ops : List XpqueueOp} :
      HoldStep t s (.queue ops) { s with xp := s.xp.execAll ops }
  | elapse {s : HoldRun} {port : Port}
      (h : (port.queues holdPhase).count t = (s.port.queues holdPhase).count t) :
      HoldStep t s (.elapse port) { s with port := port }

namespace HoldRun

variable {t : ℕ} {s s' : HoldRun}

/-- The entries are in step with X-Plane, and so is the task with the schedule.  A command that has
ended holds nothing and does not run any more. -/
structure Sound (t : ℕ) (s : HoldRun) : Prop where
  command : match s.command with
    | .cmtr command => Cmtr.Sound ⟨command, s.port, s.xp⟩
    | .cmhd command => Cmhd.Sound ⟨command, s.port, s.xp⟩
  schedules : s.port.Schedules t holdPhase s.command.task
  ended : s.ended = true → s.command.task = none ∧ HoldEntry.heldAddresses s.command.entries = []

theorem Sound.tracks (h : s.Sound t) :
    HoldEntry.Tracks (s.command.task ≠ none) s.command.entries s.xp := by
  have hcommand := h.command
  obtain ⟨command, port, xp, ended⟩ := s
  cases command with
  | cmtr command => exact hcommand.tracks
  | cmhd command => exact hcommand.tracks

/-- Nothing was called or queued for an entry yet. -/
theorem Created.released_at (h : s.Created t) (a : ℕ) : s.xp.At a .released := by
  have hcalls : s.xp.callsOf a = [] := by
    refine List.filterMap_eq_nil_iff.2 fun call hcall => ?_
    simp [XpSide.bracketOf, h.calls call hcall]
  have hqueue : s.xp.pendingOf a = 0 := by
    refine List.countP_eq_zero.2 fun task htask => ?_
    simp [h.queue task htask]
  refine ⟨?_, ?_, ?_⟩
  · rw [hcalls]
    exact alternating_nil
  · rw [hcalls]
    simp
  · rw [hqueue]
    rfl

theorem Created.sound (h : s.Created t) : s.Sound t := by
  have htracks : HoldEntry.Tracks (s.command.task ≠ none) s.command.entries s.xp := by
    refine ⟨h.nodup,
      fun a => ⟨.released, h.released_at a, ?_, fun himpossible => nomatch himpossible⟩,
        fun entry hentry hheld => ?_, h.delivers⟩
    · rw [HoldEntry.heldAddresses_of_held h.released]
      simp
    · rw [h.released entry hentry] at hheld
      cases hheld
  refine ⟨?_, .inl ⟨h.task, h.scheduled⟩, fun hended => ?_⟩
  · obtain ⟨command, port, xp, ended⟩ := s
    cases command with
    | cmtr command =>
      obtain ⟨hinit, -, -, hholding⟩ := h.fresh
      refine ⟨htracks, fun _ => ⟨fun entry hentry => ?_, fun _ => hholding, fun htrue => ?_⟩⟩
      · exact (h.released entry hentry).trans hholding.symm
      · exact absurd (hinit.symm.trans htrue) (by decide)
    | cmhd command =>
      obtain ⟨hinit, -⟩ := h.fresh
      exact ⟨htracks, fun entry hentry => (h.released entry hentry).trans hinit.symm,
        fun _ => h.nonempty⟩
  · rw [h.ended] at hended
    cases hended

theorem terminate_sound (h : s.Sound t) (lock : ErrorCode) (env : HoldEntry.ReleaseEnv) :
    (s.terminate lock env).2.Sound t := by
  obtain ⟨command, port, xp, ended⟩ := s
  obtain ⟨hcommand, hschedules, hended⟩ := h
  cases command with
  | cmtr command =>
    obtain ⟨hsound, hport, hdone⟩ := Cmtr.terminate_sound hcommand hschedules lock env
    refine ⟨hsound, hport, fun hend => ?_⟩
    rcases Bool.or_eq_true_iff.1 hend with hbefore | hnow
    · exact Cmtr.terminate_idle lock env (hended hbefore)
    · exact hdone (of_decide_eq_true hnow)
  | cmhd command =>
    obtain ⟨hsound, hport, hdone⟩ := Cmhd.terminate_sound hcommand hschedules lock env
    refine ⟨hsound, hport, fun hend => ?_⟩
    rcases Bool.or_eq_true_iff.1 hend with hbefore | hnow
    · exact Cmhd.terminate_idle lock env (hended hbefore)
    · exact hdone (of_decide_eq_true hnow)

theorem processFlightloop_sound (h : s.Sound t) (hrun : t ∈ s.port.queues holdPhase) (millis : ℤ)
    (findCommand : List UInt8 → Option ℕ) (confirm : ErrorCode) :
    (s.processFlightloop millis findCommand confirm).Sound t := by
  have htask := h.schedules.of_mem hrun
  have hsome : s.command.task ≠ none := by
    rw [htask]
    exact Option.some_ne_none t
  have hnotended : s.ended = true → False := fun hend => hsome (h.ended hend).1
  obtain ⟨command, port, xp, ended⟩ := s
  obtain ⟨hcommand, hschedules, -⟩ := h
  cases command with
  | cmtr command =>
    have hquiet := Cmtr.processFlightloop_quiet millis findCommand confirm ⟨command, port, xp⟩
    refine ⟨Cmtr.processFlightloop_sound hcommand hsome millis findCommand confirm, ?_,
      fun hend => (hnotended hend).elim⟩
    unfold Port.Schedules
    dsimp only [processFlightloop, HoldCommand.task]
    rw [hquiet.task, hquiet.queues]
    exact hschedules
  | cmhd command =>
    obtain ⟨-, htask', hqueues, -⟩ := Cmhd.processFlightloop_quiet findCommand confirm
      ⟨command, port, xp⟩
    refine ⟨Cmhd.processFlightloop_sound hcommand hsome findCommand confirm, ?_,
      fun hend => (hnotended hend).elim⟩
    unfold Port.Schedules
    dsimp only [processFlightloop, HoldCommand.task]
    rw [htask', hqueues]
    exact hschedules

theorem processPost_sound (h : s.Sound t) (hrun : t ∈ s.port.queues holdPhase) (lock : ErrorCode)
    (env : HoldEntry.ReleaseEnv) : (s.processPost lock env).Sound t := by
  have htask := h.schedules.of_mem hrun
  have hnotended : s.ended = true → False := by
    intro hend
    rw [(h.ended hend).1] at htask
    cases htask
  obtain ⟨command, port, xp, ended⟩ := s
  obtain ⟨hcommand, hschedules, -⟩ := h
  cases command with
  | cmtr command =>
    obtain ⟨hsound, hport, hdone⟩ := Cmtr.processPost_sound hcommand hschedules lock env
    refine ⟨hsound, hport, fun hend => ?_⟩
    rcases Bool.or_eq_true_iff.1 hend with hbefore | hnow
    · exact (hnotended hbefore).elim
    · exact hdone (of_decide_eq_true hnow)
  | cmhd command =>
    obtain ⟨hsound, hport, hdone⟩ := Cmhd.processPost_sound hcommand hschedules lock env
    refine ⟨hsound, hport, fun hend => ?_⟩
    rcases Bool.or_eq_true_iff.1 hend with hbefore | hnow
    · exact (hnotended hbefore).elim
    · exact hdone (of_decide_eq_true hnow)

end HoldRun

theorem HoldStep.sound {t : ℕ} {s s' : HoldRun} {act : HoldAct} (h : s.Sound t)
    (hn : HoldStep t s act s') : s'.Sound t := by
  cases hn with
  | flightloop hrun => exact HoldRun.processFlightloop_sound h hrun _ _ _
  | post hrun => exact HoldRun.processPost_sound h hrun _ _
  | term => exact HoldRun.terminate_sound h _ _
  | @queue ops =>
    obtain ⟨command, port, xp, ended⟩ := s
    obtain ⟨hcommand, hschedules, hended⟩ := h
    refine ⟨?_, hschedules, hended⟩
    cases command with
    | cmtr command =>
      exact ⟨hcommand.tracks.execAll ops, fun hsome =>
        ⟨(hcommand.running hsome).uniform, (hcommand.running hsome).idle,
          (hcommand.running hsome).known⟩⟩
    | cmhd command => exact ⟨hcommand.tracks.execAll ops, hcommand.held, hcommand.nonempty⟩
  | @elapse port' hcount =>
    obtain ⟨command, port, xp, ended⟩ := s
    obtain ⟨hcommand, hschedules, hended⟩ := h
    refine ⟨?_, ?_, hended⟩
    · cases command with
      | cmtr command =>
        exact ⟨hcommand.tracks, fun hsome =>
          ⟨(hcommand.running hsome).uniform, (hcommand.running hsome).idle,
            (hcommand.running hsome).known⟩⟩
      | cmhd command => exact ⟨hcommand.tracks, hcommand.held, hcommand.nonempty⟩
    · unfold Port.Schedules
      rw [hcount]
      exact hschedules

end XprcServer
