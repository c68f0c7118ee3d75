import XprcServer.Session.Messages

/-!
# What commands do to their session

A command that runs on a channel does little outside of its own memory: it sends messages on the
channel, its task is removed from the task schedule, and in the end it requests that the channel be
destroyed.  A `Port` is what it works on when it does so.

Whether a message can be sent and whether the schedule can be locked is decided elsewhere; where a
command looks at such a result, it is an argument of the function that models the command.
-/

namespace XprcServer

/-- `task_schedule_phase_t`, the phases that have a queue of tasks -/
inductive TaskSchedulePhase where
  | beforeFlightModel
  | afterFlightModel
  deriving DecidableEq, Repr

/-- A call of one of the functions that send a message on a channel. -/
structure CommandMessage where
  call : ChannelCall
  id : ChannelId
  timestamp : ℤ
  text : Option (List UInt8)
  deriving DecidableEq, Repr

/-- The channels of the session, the queues of the task schedule, and the messages so far. -/
structure Port where
  channels : ChannelsTable
  queues : TaskSchedulePhase → List ℕ
  sent : List CommandMessage

namespace Port

variable (port : Port)

/-- A message on the channel with the identifier `id`. -/
def send (call : ChannelCall) (id : ChannelId) (timestamp : ℤ)
    (text : Option (List UInt8)) : Port :=
  { port with sent := port.sent ++ [⟨call, id, timestamp, text⟩] }

/-- `request_channel_destruction` -/
def requestChannelDestruction (id : ChannelId) : Port :=
  { port with
    channels := port.channels.modify id fun channel =>
      { channel with destructionRequested := true } }

/-- `lock_schedule` with the result `lock`, and `unschedule_task` if the schedule was locked. -/
def unscheduleTask (lock : ErrorCode) (task : Option ℕ) (phase : TaskSchedulePhase) :
    ErrorCode × Port :=
  if lock ≠ .none then (lock, port)
  else
    match task with
    | none => (.unspecific, port)
    | some task =>
      if task ∈ port.queues phase then
        (.none, { port with
          queues := Function.update port.queues phase ((port.queues phase).erase task) })
      else (.unspecific, port)

/-- A command without a task has nothing to unschedule.  Otherwise it gives up its task if that
could be unscheduled; `lock` is the result of `lock_schedule`. -/
def unschedule (lock : ErrorCode) (task : Option ℕ) (phase : TaskSchedulePhase) :
    ErrorCode × Option ℕ × Port :=
  if task.isNone then (.none, none, port)
  else
    let r := port.unscheduleTask lock task phase
    if r.1 ≠ .none then (r.1, task, r.2) else (.none, none, r.2)

/-- The termination of a command that holds nothing but its task: the channel `id` is finished, the
task is unscheduled, and the end of the channel is requested.  The result is followed by the
identifier, the task and the port that the command has then. -/
def terminate (lock : ErrorCode) (id : ChannelId) (task : Option ℕ) (phase : TaskSchedulePhase) :
    ErrorCode × ChannelId × Option ℕ × Port :=
  -- the channel may have been closed before; the result is ignored
  let r := (port.send .finish id currentTimeReference none).unschedule lock task phase
  if r.1 ≠ .none then (r.1, id, r.2)
  else (.none, badChannelId, r.2.1, r.2.2.requestChannelDestruction id)

variable {port} {id : ChannelId}

@[simp] theorem requestChannelDestruction_queues :
    (port.requestChannelDestruction id).queues = port.queues := rfl

/-- A task that is scheduled once is gone after it was unscheduled. -/
theorem unscheduleTask_of_count {phase : TaskSchedulePhase} {task : ℕ}
    (h : (port.queues phase).count task = 1) :
    ∃ port', port.unscheduleTask .none (some task) phase = (.none, port') ∧
      (port'.queues phase).count task = 0 ∧ port'.channels = port.channels ∧
      port'.sent = port.sent := by
  have hmem : task ∈ port.queues phase := List.count_pos_iff.1 (by omega)
  refine ⟨{ port with
    queues := Function.update port.queues phase ((port.queues phase).erase task) },
    ?_, ?_, rfl, rfl⟩
  · simp [unscheduleTask, hmem]
  · simp [h]

/-- Nothing but the queue of the phase changes, and that only if the task is removed from it. -/
theorem unscheduleTask_cases (port : Port) (lock : ErrorCode) (task : Option ℕ)
    (phase : TaskSchedulePhase) :
    ((port.unscheduleTask lock task phase).1 ≠ .none ∧
      (port.unscheduleTask lock task phase).2 = port) ∨
    ∃ t, task = some t ∧ t ∈ port.queues phase ∧ port.unscheduleTask lock task phase = (.none,
      { port with queues := Function.update port.queues phase ((port.queues phase).erase t) }) := by
  unfold unscheduleTask
  split_ifs with hlock
  · exact .inl ⟨hlock, rfl⟩
  · cases task with
    | none => exact .inl ⟨by simp, rfl⟩
    | some t =>
      dsimp only
      split_ifs with hmem
      · exact .inr ⟨t, rfl, hmem, rfl⟩
      · exact .inl ⟨by simp, rfl⟩

/-- Tasks of a command: the one it knows is scheduled once, and no other. -/
def Schedules (port : Port) (t : ℕ) (phase : TaskSchedulePhase) (task : Option ℕ) : Prop :=
  (task = some t ∧ (port.queues phase).count t = 1) ∨
  (task = none ∧ (port.queues phase).count t = 0)

/-- A command whose task is in the queue knows it. -/
theorem Schedules.of_mem {t : ℕ} {phase : TaskSchedulePhase} {task : Option ℕ}
    (h : port.Schedules t phase task) (hmem : t ∈ port.queues phase) : task = some t := by
  rcases h with ⟨htask, -⟩ | ⟨-, hcount⟩
  · exact htask
  · exact absurd hmem (List.count_eq_zero.1 hcount)

/-- Unscheduling keeps the bookkeeping; if it succeeds, the command has no task any more. -/
theorem Schedules.unschedule {t : ℕ} {phase : TaskSchedulePhase} {task : Option ℕ}
    (h : port.Schedules t phase task) (lock : ErrorCode) :
    (port.unschedule lock task phase).2.2.Schedules t phase (port.unschedule lock task phase).2.1 ∧
      ((port.unschedule lock task phase).1 = .none → (port.unschedule lock task phase).2.1 = none) ∧
      ((port.unschedule lock task phase).1 ≠ .none →
        (port.unschedule lock task phase).2 = (task, port)) ∧
      (port.unschedule lock task phase).2.2.channels = port.channels ∧
      (lock = .none → (port.unschedule lock task phase).1 = .none) := by
  rcases h with ⟨rfl, hcount⟩ | ⟨rfl, hcount⟩
  · have hmem : t ∈ port.queues phase := List.count_pos_iff.1 (by omega)
    by_cases hlock : lock = .none
    · obtain ⟨port', hrun, hgone, hchannels, -⟩ := unscheduleTask_of_count hcount
      have heq : port.unschedule lock (some t) phase = (.none, none, port') := by
        simp [Port.unschedule, hlock, hrun]
      rw [heq]
      exact ⟨.inr ⟨rfl, hgone⟩, fun _ => rfl, fun hne => absurd rfl hne, hchannels, fun _ => rfl⟩
    · have heq : port.unschedule lock (some t) phase = (lock, some t, port) := by
        simp [Port.unschedule, unscheduleTask, hlock]
      rw [heq]
      exact ⟨.inl ⟨rfl, hcount⟩, fun hnone => absurd hnone hlock, fun _ => rfl, rfl,
        fun hnone => absurd hnone hlock⟩
  · have heq : port.unschedule lock none phase = (.none, none, port) := by
      simp [Port.unschedule]
    rw [heq]
    exact ⟨.inr ⟨rfl, hcount⟩, fun _ => rfl, fun hne => absurd rfl hne, rfl, fun _ => rfl⟩

/-- Unscheduling sends nothing, and does nothing to the channels. -/
theorem unschedule_frame (port : Port) (lock : ErrorCode) (task : Option ℕ)
    (phase : TaskSchedulePhase) :
    (port.unschedule lock task phase).2.2.sent = port.sent ∧
      (port.unschedule lock task phase).2.2.channels = port.channels := by
  unfold unschedule
  split_ifs with hnone
  · exact ⟨rfl, rfl⟩
  · rcases unscheduleTask_cases port lock task phase with ⟨hfailed, hsame⟩ | ⟨t, -, -, hrun⟩
    · dsimp only
      rw [if_pos hfailed, hsame]
      exact ⟨rfl, rfl⟩
    · dsimp only
      rw [hrun, if_neg (not_not.2 rfl)]
      exact ⟨rfl, rfl⟩

theorem Schedules.unschedule_elsewhere {t : ℕ} {phase : TaskSchedulePhase} {task : Option ℕ}
    (h : port.Schedules t phase task) (lock : ErrorCode) {phase' : TaskSchedulePhase} {t' : ℕ}
    (hne : t' ≠ t ∨ phase' ≠ phase) :
    ((port.unschedule lock task phase).2.2.queues phase').count t' =
      (port.queues phase').count t' := by
  unfold Port.unschedule
  split_ifs with hnone
  · rfl
  · rcases unscheduleTask_cases port lock task phase with ⟨hfailed, hsame⟩ | ⟨t₁, htask, hmem, hrun⟩
    · dsimp only
      rw [if_pos hfailed, hsame]
    · dsimp only
      rw [hrun, if_neg (not_not.2 rfl)]
      obtain rfl : t₁ = t := by
        rcases h with ⟨hown, -⟩ | ⟨hgone, -⟩
        · exact Option.some.inj (htask.symm.trans hown)
        · rw [hgone] at htask
          cases htask
      by_cases hphase : phase' = phase
      · subst hphase
        have ht' : t' ≠ t₁ := hne.resolve_right (fun hphase => hphase rfl)
        simp [List.count_erase_of_ne ht']
      · simp [Function.update_of_ne hphase]

/-- A termination closes the channel and keeps the bookkeeping of the task.  If it succeeds, the
command has no task any more and the end of the channel is requested; otherwise the command is as
before. -/
theorem Schedules.terminate {t : ℕ} {phase : TaskSchedulePhase} {task : Option ℕ}
    (h : port.Schedules t phase task) (lock : ErrorCode) (id : ChannelId) :
    (port.terminate lock id task phase).2.2.2.Schedules t phase
        (port.terminate lock id task phase).2.2.1 ∧
      (port.terminate lock id task phase).2.2.2.sent =
        port.sent ++ [⟨.finish, id, currentTimeReference, none⟩] ∧
      ((port.terminate lock id task phase).1 = .none →
        (port.terminate lock id task phase).2.1 = badChannelId ∧
        (port.terminate lock id task phase).2.2.1 = none ∧
        (port.terminate lock id task phase).2.2.2.channels =
          (port.requestChannelDestruction id).channels) ∧
      ((port.terminate lock id task phase).1 ≠ .none →
        (port.terminate lock id task phase).2.1 = id ∧
        (port.terminate lock id task phase).2.2.1 = task ∧
        (port.terminate lock id task phase).2.2.2.channels = port.channels) ∧
      (lock = .none → (port.terminate lock id task phase).1 = .none) := by
  have hsent : (port.send .finish id currentTimeReference none).Schedules t phase task := h
  obtain ⟨hschedules, hgone, hkept, hchannels, hok⟩ := hsent.unschedule lock
  have hmessages :=
    (unschedule_frame (port.send .finish id currentTimeReference none) lock task phase).1
  unfold Port.terminate
  dsimp only
  by_cases hfailed :
      ((port.send .finish id currentTimeReference none).unschedule lock task phase).1 ≠ .none
  · rw [if_pos hfailed]
    have hsame := hkept hfailed
    exact ⟨hschedules, hmessages, fun hnone => absurd hnone hfailed,
      fun _ => ⟨rfl, congrArg Prod.fst hsame, hchannels⟩, hok⟩
  · rw [if_neg hfailed]
    refine ⟨hschedules, hmessages, fun _ => ⟨rfl, hgone (not_not.1 hfailed), ?_⟩,
      fun hne => absurd rfl hne, fun _ => rfl⟩
    unfold requestChannelDestruction
    rw [hchannels]
    rfl

end Port

end XprcServer
