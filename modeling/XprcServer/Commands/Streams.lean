import XprcServer.Commands.Sampling

/-!
# What a termination works on

The commands DRQV, DRMU and DRLS hold nothing but their task and their channel, and their
`terminate` functions are the same: the channel is finished, the task is unscheduled, and the end of
the channel is requested.

A `Seat` is the part of a command that a termination looks at.  All that the processing of a command
does to its seat is to send messages, and possibly to terminate the command at the end
(`Seat.Works`).

What the inner functions of DRMU and DRLS compute is left open: any values of the fields that decide
how the processing goes on, and any messages.
-/

namespace XprcServer

/-- The part of a command that a termination looks at. -/
structure Seat where
  channelId : ChannelId
  task : Option ℕ
  phase : TaskSchedulePhase
  port : Port

namespace Seat

/-- The termination of a command that holds nothing but its seat. -/
def terminate (lock : ErrorCode) (s : Seat) : ErrorCode × Seat :=
  let r := s.port.terminate lock s.channelId s.task s.phase
  (r.1, ⟨r.2.1, r.2.2.1, s.phase, r.2.2.2⟩)

/-- Messages that are sent. -/
def tell (messages : List CommandMessage) (s : Seat) : Seat :=
  { s with port := { s.port with sent := s.port.sent ++ messages } }

/-- What processing does to the seat: messages are sent, and the command may be terminated then. -/
inductive Works (s : Seat) : Seat → Prop
  | keeps (messages : List CommandMessage) : Works s (s.tell messages)
  | ends (messages : List CommandMessage) (lock : ErrorCode) :
      Works s ((s.tell messages).terminate lock).2

/-- Nothing is sent. -/
theorem tell_nil (s : Seat) : s.tell [] = s := by
  simp [tell]

theorem Works.refl (s : Seat) : s.Works s := by
  have hnone := Works.keeps (s := s) []
  rwa [tell_nil] at hnone

/-- Only messages were sent. -/
def Tells (s s' : Seat) : Prop := ∃ messages, s' = s.tell messages

theorem Tells.refl (s : Seat) : s.Tells s := ⟨[], (tell_nil s).symm⟩

theorem Tells.trans {s s' s'' : Seat} (h : s.Tells s') (h' : s'.Tells s'') : s.Tells s'' := by
  obtain ⟨messages, rfl⟩ := h
  obtain ⟨messages', rfl⟩ := h'
  exact ⟨messages ++ messages', by simp [tell]⟩

theorem Tells.works {s s' : Seat} (h : s.Tells s') : s.Works s' := by
  obtain ⟨messages, rfl⟩ := h
  exact .keeps messages

theorem Tells.ends {s s' : Seat} (h : s.Tells s') (lock : ErrorCode) :
    s.Works (s'.terminate lock).2 := by
  obtain ⟨messages, rfl⟩ := h
  exact .ends messages lock

end Seat

/-- What an inner function of a command leaves: the fields of type `φ`, and the messages. -/
structure Work (φ : Type) where
  fields : φ
  messages : List (ChannelCall × ℤ × Option (List UInt8))

/-- Messages on the channel `id`. -/
def messagesOn (id : ChannelId) (messages : List (ChannelCall × ℤ × Option (List UInt8))) :
    List CommandMessage :=
  messages.map fun m => ⟨m.1, id, m.2.1, m.2.2⟩

/-- A command with its seat and the fields that its processing depends on. -/
structure Stream (φ : Type) where
  channelId : ChannelId
  task : Option ℕ
  fields : φ
  port : Port

namespace Stream

variable {φ : Type}

/-- The seat of a command whose task runs in `phase`. -/
def seat (phase : TaskSchedulePhase) (s : Stream φ) : Seat := ⟨s.channelId, s.task, phase, s.port⟩

/-- The command with another seat. -/
def inSeat (s : Stream φ) (seat : Seat) : Stream φ :=
  { s with channelId := seat.channelId, task := seat.task, port := seat.port }

/-- What an inner function has left. -/
def apply (work : Work φ) (s : Stream φ) : Stream φ :=
  { s with
    fields := work.fields
    port := { s.port with sent := s.port.sent ++ messagesOn s.channelId work.messages } }

/-- A message on the channel. -/
def send (call : ChannelCall) (s : Stream φ) (text : Option String) : Stream φ :=
  { s with port := s.port.send call s.channelId currentTimeReference (text.map bytes) }

end Stream

/-! ### DRQV -/

namespace Drqv

variable {V : Type} {s : State V}

/-- The seat of a DRQV command. -/
def seat (s : State V) : Seat :=
  ⟨s.command.channelId, s.command.task, s.command.phase, s.port⟩

theorem send_tells (call : ChannelCall) (timestamp : ℤ) (text : Option (List UInt8)) :
    (seat s).Tells (seat (s.send call timestamp text)) := ⟨[_], rfl⟩

theorem checkDue_tells (xp : XpDatarefs V) (now : ℤ) (s : State V) :
    (seat s).Tells (seat (checkDue xp now s).2) := by
  have hinitialize : (seat s).Tells (seat (initializeCommand xp s).2) := by
    unfold initializeCommand
    dsimp only
    split
    · exact ⟨[_], rfl⟩
    · exact .refl _
  unfold checkDue
  dsimp only
  split_ifs
  · exact hinitialize
  · exact hinitialize.trans (send_tells _ _ _)
  · exact .refl _
  · exact .refl _

theorem sample_tells (xp : XpDatarefs V) (now : ℤ) (s : State V) :
    (seat s).Tells (seat (sample xp now s)) := by
  unfold sample
  dsimp only
  split
  · exact ⟨[_], rfl⟩
  · exact .refl _

theorem repeatSample_tells (xp : XpDatarefs V) (now : ℤ) (s : State V) :
    (seat s).Tells (seat (repeatSample xp now s)) := by
  unfold repeatSample
  split_ifs
  · exact sample_tells xp now (s.modify _)
  · exact .refl _
  · exact sample_tells xp now s

theorem processFlightloop_works (xp : XpDatarefs V) (now : ℤ) (s : State V) :
    (seat s).Works (seat (processFlightloop xp now s)) := by
  have hcheck := checkDue_tells xp now s
  have htimer : (seat s).Tells (seat ((checkDue xp now s).2.modify (resetTimer now))) := by
    obtain ⟨wait, notBefore, hreset⟩ := resetTimer_eq now (checkDue xp now s).2.command
    unfold State.modify
    rw [hreset]
    exact hcheck
  unfold processFlightloop
  dsimp only
  split_ifs
  · exact .refl _
  · exact hcheck.works
  · exact (htimer.trans (repeatSample_tells xp now _)).works

theorem processPost_works (lock submitted : ErrorCode) (env : EncodeEnv V) (s : State V) :
    (seat s).Works (seat (processPost lock submitted env s)) := by
  unfold processPost
  dsimp only
  split
  · exact (Seat.Tells.refl _).ends lock
  split
  · exact .refl _
  split
  · exact .refl _
  split
  · exact (send_tells _ _ _).works
  split
  · split
    · exact ((send_tells _ _ _).trans (send_tells _ _ _)).works
    · exact (send_tells _ _ _).works
  · exact (send_tells _ _ _).ends lock

theorem step_works (t : ℕ) (s : State V) (event : DrqvEvent V) :
    (seat s).Works (seat (step t s event)) := by
  unfold step
  split
  · cases event with
    | flightloop now xp => exact processFlightloop_works xp now s
    | post lock submitted env => exact processPost_works lock submitted env s
  · exact .refl _

end Drqv

/-! ### DRMU -/

/-- The fields of `command_drmu_t` that decide how its processing goes on. -/
structure DrmuFields where
  phase : TaskSchedulePhase
  initialized : Bool
  failed : Bool
  done : Bool
  timestamp : ℤ
  deriving DecidableEq, Repr

namespace Drmu

/-- The seat of a DRMU command. -/
def seat (s : Stream DrmuFields) : Seat := s.seat s.fields.phase

/-- `drmu_terminate` -/
def terminate (lock : ErrorCode) (s : Stream DrmuFields) : ErrorCode × Stream DrmuFields :=
  let r := (seat s).terminate lock
  (r.1, s.inSeat r.2)

/-- What an inner function has left; it does not change the phase. -/
def apply (work : Work DrmuFields) (s : Stream DrmuFields) : Stream DrmuFields :=
  s.apply { work with fields := { work.fields with phase := s.fields.phase } }

/-- `drmu_process_flightloop`, which does nothing to a command that is done; what it does otherwise
is `work`. -/
def processFlightloop (work : Work DrmuFields) (s : Stream DrmuFields) : Stream DrmuFields :=
  if s.fields.failed || s.fields.done then s else apply work s

/-- The first part of `drmu_process_post`; `work` is what `submit_monitor_data` does. -/
def submit (work : Work DrmuFields) (s : Stream DrmuFields) : Stream DrmuFields :=
  if !s.fields.failed && 0 < s.fields.timestamp then apply work s else s

/-- The second part of `drmu_process_post`: a command that has failed closes its channel. -/
def closeFailed (s : Stream DrmuFields) : Stream DrmuFields :=
  if s.fields.failed then
    let s := s.send .error none
    { s with fields := { s.fields with done := true } }
  else s

/-- `drmu_process_post` -/
def processPost (lock : ErrorCode) (work : Work DrmuFields) (s : Stream DrmuFields) :
    Stream DrmuFields :=
  if !s.fields.failed && (!s.fields.initialized && !s.fields.done) then s
  else
    let s := closeFailed (submit work s)
    if s.fields.done then (terminate lock s).2 else s

/-- `complete_without_schedule`, for a command without a task; `work` is what it does before it
terminates the command. -/
def completeWithoutSchedule (lock : ErrorCode) (work : Work DrmuFields) (s : Stream DrmuFields) :
    ErrorCode × Stream DrmuFields :=
  terminate lock (apply work s)

theorem processFlightloop_works (work : Work DrmuFields) (s : Stream DrmuFields) :
    (seat s).Works (seat (processFlightloop work s)) := by
  unfold processFlightloop
  split_ifs
  · exact .refl _
  · exact .keeps _

/-- Up to the termination, post-processing only sends messages. -/
theorem closeFailed_tells (work : Work DrmuFields) (s : Stream DrmuFields) :
    (seat s).Tells (seat (closeFailed (submit work s))) := by
  have hsubmit : (seat s).Tells (seat (submit work s)) := by
    unfold submit
    split_ifs
    · exact ⟨_, rfl⟩
    · exact .refl _
  refine hsubmit.trans ?_
  unfold closeFailed
  split_ifs
  · exact ⟨[_], rfl⟩
  · exact .refl _

theorem processPost_works (lock : ErrorCode) (work : Work DrmuFields) (s : Stream DrmuFields) :
    (seat s).Works (seat (processPost lock work s)) := by
  have htells := closeFailed_tells work s
  unfold processPost
  dsimp only
  split_ifs
  · exact .refl _
  · exact htells.ends lock
  · exact htells.works

end Drmu

/-! ### DRLS -/

/-- The fields of `command_drls_t` that decide how its processing goes on. -/
structure DrlsFields where
  failed : Bool
  done : Bool
  deriving DecidableEq, Repr

namespace Drls

/-- `DRLS_SCHEDULE_PHASE` -/
def schedulePhase : TaskSchedulePhase := .beforeFlightModel

/-- The seat of a DRLS command. -/
def seat (s : Stream DrlsFields) : Seat := s.seat schedulePhase

/-- `drls_terminate` -/
def terminate (lock : ErrorCode) (s : Stream DrlsFields) : ErrorCode × Stream DrlsFields :=
  let r := (seat s).terminate lock
  (r.1, s.inSeat r.2)

/-- `drls_process` in a flight loop or in post-processing; `work` is what the function for the phase
and the kind of the command does. -/
def process (lock : ErrorCode) (work : Work DrlsFields) (s : Stream DrlsFields) :
    Stream DrlsFields :=
  if s.fields.failed then (terminate lock s).2
  else
    let s := s.apply work
    if s.fields.failed then (terminate lock (s.send .error (some "failed to process command"))).2
    else if s.fields.done then (terminate lock (s.send .finish none)).2
    else s

theorem process_works (lock : ErrorCode) (work : Work DrlsFields) (s : Stream DrlsFields) :
    (seat s).Works (seat (process lock work s)) := by
  have happly : (seat s).Tells (seat (s.apply work)) := ⟨_, rfl⟩
  have hsend : ∀ call text, (seat s).Tells (seat ((s.apply work).send call text)) :=
    fun _ _ => happly.trans ⟨[_], rfl⟩
  unfold process
  dsimp only
  split_ifs
  · exact (Seat.Tells.refl _).ends lock
  · exact (hsend _ _).ends lock
  · exact (hsend _ _).ends lock
  · exact happly.works

end Drls

end XprcServer
