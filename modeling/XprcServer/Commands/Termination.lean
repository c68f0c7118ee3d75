import XprcServer.Commands.Streams
import XprcServer.Commands.HoldRuns
import XprcServer.Server.Occupancy

/-!
# Commands that can be terminated

A client ends a command with the request TERM.  If the `terminate` function of the command refuses,
the connection is closed, and the channel stays busy; otherwise the end of the channel is requested,
and the next maintenance run frees its identifier.

The runs are those of CMTR and CMHD, and those of DRQV, DRMU and DRLS: flight loops and
post-processing work on the command, it may be terminated at any time, and others use the channels
table and the schedule.

`cmhd_terminate` removes the entries that it releases from its list and refuses if entries are left.
Entries that are not held are left: before the first flight loop, and after an initialization that
failed.  (`cmtr_terminate` counts the releases that fail.)

* `terminate_frees_channel` : when the schedule can be locked and releases can be queued, a
  termination succeeds and requests the end of the channel iff the command is not a CMHD command
  that has not been initialized; a TERM request that ends a command leaves the connection open, and
  maintenance frees the identifier.
-/

namespace XprcServer

open Lib

/-! ### The channel of a command -/

namespace Seat

variable {t : ℕ} {id : ChannelId} {s s' : Seat}

/-- The channel `id` is in the table; the command knows it, or its end is requested. -/
def Files (id channelId : ChannelId) (channels : ChannelsTable) : Prop :=
  ∃ channel, channels.lookup id = some channel ∧
    (channelId = id ∨ channel.destructionRequested = true)

/-- The end of the channel `id` is requested. -/
def Marked (id : ChannelId) (channels : ChannelsTable) : Prop :=
  ∃ channel, channels.lookup id = some channel ∧ channel.destructionRequested = true

/-- A command gives up its channel, if at all, with a request for its end. -/
def Vacates (channelId : ChannelId) (channels : ChannelsTable) (channelId' : ChannelId)
    (channels' : ChannelsTable) : Prop :=
  (channelId' = channelId ∧ channels' = channels) ∨
    channels' = channels.modify channelId fun channel =>
      { channel with destructionRequested := true }

theorem Files.marked {channelId : ChannelId} {channels : ChannelsTable}
    (h : Files id channelId channels) :
    Marked id (channels.modify channelId fun channel =>
      { channel with destructionRequested := true }) := by
  obtain ⟨channel, hid, hown⟩ := h
  by_cases hne : id = channelId
  · subst hne
    exact ⟨_, by rw [ChannelsTable.lookup_modify_self, hid]; rfl, rfl⟩
  · refine ⟨channel, ?_, hown.resolve_left (Ne.symm hne)⟩
    rw [ChannelsTable.lookup_modify_of_ne hne]
    exact hid

theorem Files.vacates {channelId channelId' : ChannelId} {channels channels' : ChannelsTable}
    (h : Files id channelId channels) (hv : Vacates channelId channels channelId' channels') :
    Files id channelId' channels' := by
  rcases hv with ⟨rfl, rfl⟩ | rfl
  · exact h
  · obtain ⟨channel, hid, hmarked⟩ := h.marked
    exact ⟨channel, hid, .inr hmarked⟩

/-- The command knows its task as long as it is scheduled, and its channel. -/
structure Sound (t : ℕ) (id : ChannelId) (s : Seat) : Prop where
  schedules : s.port.Schedules t s.phase s.task
  files : Files id s.channelId s.port.channels

theorem Sound.terminate (h : s.Sound t id) (lock : ErrorCode) :
    (s.terminate lock).2.Sound t id ∧ (lock = .none →
      (s.terminate lock).1 = .none ∧ Marked id (s.terminate lock).2.port.channels) := by
  obtain ⟨hschedules, -, hok, hfailed, hlock⟩ := h.schedules.terminate lock s.channelId
  refine ⟨⟨hschedules, h.files.vacates ?_⟩, fun hnone => ⟨hlock hnone, ?_⟩⟩
  · by_cases hnone : (s.port.terminate lock s.channelId s.task s.phase).1 = .none
    · exact .inr (hok hnone).2.2
    · exact .inl ⟨(hfailed hnone).1, (hfailed hnone).2.2⟩
  · have hmarked := h.files.marked
    have hchannels := (hok (hlock hnone)).2.2
    exact hchannels ▸ hmarked

theorem Sound.works (h : s.Sound t id) (hw : s.Works s') : s'.Sound t id := by
  have htell : ∀ messages, (s.tell messages).Sound t id := fun _ => ⟨h.schedules, h.files⟩
  cases hw with
  | keeps messages => exact htell messages
  | ends messages lock => exact ((htell messages).terminate lock).1

/-- Others leave the task scheduled as it is; they neither remove the channel nor take the request
for its end back. -/
structure Spares (t : ℕ) (id : ChannelId) (phase : TaskSchedulePhase)
    (port port' : Port) : Prop where
  count : (port'.queues phase).count t = (port.queues phase).count t
  channel : ∀ channel, port.channels.lookup id = some channel →
    ∃ channel', port'.channels.lookup id = some channel' ∧
      (channel.destructionRequested = true → channel'.destructionRequested = true)

theorem Sound.spares (h : s.Sound t id) {port : Port} (hs : Spares t id s.phase s.port port) :
    Sound t id { s with port := port } := by
  constructor
  · unfold Port.Schedules
    dsimp only
    rw [hs.count]
    exact h.schedules
  · obtain ⟨channel, hid, hown⟩ := h.files
    obtain ⟨channel', hid', hkept⟩ := hs.channel channel hid
    exact ⟨channel', hid', hown.imp_right hkept⟩

end Seat

/-! ### Commands that hold X-Plane commands -/

namespace HoldRun

/-- The seat of the command. -/
def seat (s : HoldRun) : Seat := ⟨s.command.channelId, s.command.task, holdPhase, s.port⟩

end HoldRun

theorem Cmtr.terminate_vacates (lock : ErrorCode) (env : HoldEntry.ReleaseEnv) (s : Cmtr.State) :
    Seat.Vacates s.command.channelId s.port.channels (Cmtr.terminate lock env s).2.command.channelId
      (Cmtr.terminate lock env s).2.port.channels := by
  have hchannels :=
    (Port.unschedule_frame (s.send .finish none).port lock s.command.task taskPhase).2
  unfold Cmtr.terminate
  dsimp only
  split_ifs
  · exact .inl ⟨rfl, hchannels⟩
  · exact .inl ⟨rfl, hchannels⟩
  · exact .inr
      (congrArg (fun channels : ChannelsTable => channels.modify s.command.channelId _) hchannels)

theorem Cmhd.terminate_vacates (lock : ErrorCode) (env : HoldEntry.ReleaseEnv) (s : Cmhd.State) :
    Seat.Vacates s.command.channelId s.port.channels (Cmhd.terminate lock env s).2.command.channelId
      (Cmhd.terminate lock env s).2.port.channels := by
  have hchannels :=
    (Port.unschedule_frame (s.send .finish none).port lock s.command.task taskPhase).2
  unfold Cmhd.terminate
  dsimp only
  split_ifs
  · exact .inl ⟨rfl, hchannels⟩
  · exact .inl ⟨rfl, hchannels⟩
  · exact .inr
      (congrArg (fun channels : ChannelsTable => channels.modify s.command.channelId _) hchannels)

theorem Cmhd.processPost_vacates (lock : ErrorCode) (env : HoldEntry.ReleaseEnv) (s : Cmhd.State) :
    Seat.Vacates s.command.channelId s.port.channels
      (Cmhd.processPost lock env s).2.command.channelId
      (Cmhd.processPost lock env s).2.port.channels := by
  have hterminate := Cmhd.terminate_vacates lock env s
  have hchannels := (Port.unschedule_frame s.port lock s.command.task taskPhase).2
  unfold Cmhd.processPost
  dsimp only
  split_ifs
  · exact hterminate
  · exact .inl ⟨rfl, rfl⟩
  · exact .inl ⟨rfl, hchannels⟩
  · exact .inl ⟨rfl, hchannels⟩

/-- The steps of the command itself leave its channel in place, or request its end. -/
theorem HoldStep.vacates {t : ℕ} {s s' : HoldRun} {act : HoldAct} (h : HoldStep t s act s')
    (hown : ∀ port, act ≠ .elapse port) :
    Seat.Vacates s.command.channelId s.port.channels s'.command.channelId s'.port.channels := by
  cases h with
  | @flightloop millis findCommand confirm hrun =>
    obtain ⟨command, port, xp, ended⟩ := s
    cases command with
    | cmtr command =>
      have hquiet := Cmtr.processFlightloop_quiet millis findCommand confirm ⟨command, port, xp⟩
      exact .inl ⟨hquiet.channelId, hquiet.channels⟩
    | cmhd command =>
      obtain ⟨hid, -, -, hchannels⟩ :=
        Cmhd.processFlightloop_quiet findCommand confirm ⟨command, port, xp⟩
      exact .inl ⟨hid, hchannels⟩
  | @post lock env hrun =>
    obtain ⟨command, port, xp, ended⟩ := s
    cases command with
    | cmtr command =>
      have hterminate := Cmtr.terminate_vacates lock env ⟨command, port, xp⟩
      dsimp only [HoldRun.processPost, HoldCommand.channelId]
      unfold Cmtr.processPost
      split_ifs
      · exact hterminate
      · exact .inl ⟨rfl, rfl⟩
    | cmhd command => exact Cmhd.processPost_vacates lock env ⟨command, port, xp⟩
  | @term lock env =>
    obtain ⟨command, port, xp, ended⟩ := s
    cases command with
    | cmtr command => exact Cmtr.terminate_vacates lock env ⟨command, port, xp⟩
    | cmhd command => exact Cmhd.terminate_vacates lock env ⟨command, port, xp⟩
  | queue => exact .inl ⟨rfl, rfl⟩
  | @elapse port hcount => exact absurd rfl (hown port)

/-! ### The runs -/

/-- A command that can be terminated, with what it works on. -/
inductive TermRun (V : Type) where
  | hold (s : HoldRun)
  | drqv (s : Drqv.State V)
  | drmu (s : Stream DrmuFields)
  | drls (s : Stream DrlsFields)

namespace TermRun

variable {V : Type}

/-- The seat of the command. -/
def seat : TermRun V → Seat
  | hold s => s.seat
  | drqv s => Drqv.seat s
  | drmu s => Drmu.seat s
  | drls s => Drls.seat s

/-- `terminate` of the command -/
def terminate (lock : ErrorCode) (env : HoldEntry.ReleaseEnv) : TermRun V → ErrorCode × TermRun V
  | hold s => ((s.terminate lock env).1, hold (s.terminate lock env).2)
  | drqv s => ((Drqv.terminate lock s).1, drqv (Drqv.terminate lock s).2)
  | drmu s => ((Drmu.terminate lock s).1, drmu (Drmu.terminate lock s).2)
  | drls s => ((Drls.terminate lock s).1, drls (Drls.terminate lock s).2)

/-- Others have changed the port. -/
def withPort (port : Port) : TermRun V → TermRun V
  | hold s => hold { s with port := port }
  | drqv s => drqv { s with port := port }
  | drmu s => drmu { s with port := port }
  | drls s => drls { s with port := port }

/-- What a successful creation on the channel `id` leaves: the task `t` is scheduled.  A DRMU
command that needs no task has already been terminated. -/
def Created (t : ℕ) (id : ChannelId) : TermRun V → Prop
  | hold s => s.Created t ∧ s.command.channelId = id
  | drqv s => ∃ lib blank request, Drqv.Created lib blank request t s ∧ request.channelId = id
  | drmu s => (s.channelId = id ∧ s.task = some t ∧ (s.port.queues s.fields.phase).count t = 1) ∨
      ∃ s₀ lock work, s₀.channelId = id ∧ s₀.task = none ∧
        (s₀.port.queues s₀.fields.phase).count t = 0 ∧ s₀.port.channels.lookup id ≠ none ∧
        s = (Drmu.completeWithoutSchedule lock work s₀).2
  | drls s => s.channelId = id ∧ s.task = some t ∧ (s.port.queues Drls.schedulePhase).count t = 1

/-- The queue of X-Plane calls is being destroyed. -/
def destructionPending : TermRun V → Bool
  | hold s => s.xp.queue.destructionPending
  | _ => false

/-- A CMHD command that holds its entries, or any other command. -/
def Releasable : TermRun V → Prop
  | hold ⟨.cmhd command, _, _, _⟩ => command.initialized = true
  | _ => True

end TermRun

/-- What can happen to a command. -/
inductive TermAct (V : Type) where
  | hold (act : HoldAct)
  | drqv (event : DrqvEvent V)
  | drmuFlightloop (work : Work DrmuFields)
  | drmuPost (lock : ErrorCode) (work : Work DrmuFields)
  | drls (lock : ErrorCode) (work : Work DrlsFields)
  | term (lock : ErrorCode) (env : HoldEntry.ReleaseEnv)
  | elapse (port : Port)

/-- The steps.  The task runs only while it is scheduled. -/
inductive TermStep {V : Type} (t : ℕ) (id : ChannelId) : TermRun V → TermAct V → TermRun V → Prop
  | hold {s s' : HoldRun} {act : HoldAct} (h : HoldStep t s act s')
      (hown : ∀ port, act ≠ .elapse port) : TermStep t id (.hold s) (.hold act) (.hold s')
  | drqv {s : Drqv.State V} {event : DrqvEvent V} :
      TermStep t id (.drqv s) (.drqv event) (.drqv (Drqv.step t s event))
  | drmuFlightloop {s : Stream DrmuFields} {work : Work DrmuFields}
      (h : t ∈ s.port.queues s.fields.phase) :
      TermStep t id (.drmu s) (.drmuFlightloop work) (.drmu (Drmu.processFlightloop work s))
  | drmuPost {s : Stream DrmuFields} {lock : ErrorCode} {work : Work DrmuFields}
      (h : t ∈ s.port.queues s.fields.phase) :
      TermStep t id (.drmu s) (.drmuPost lock work) (.drmu (Drmu.processPost lock work s))
  | drls {s : Stream DrlsFields} {lock : ErrorCode} {work : Work DrlsFields}
      (h : t ∈ s.port.queues Drls.schedulePhase) :
      TermStep t id (.drls s) (.drls lock work) (.drls (Drls.process lock work s))
  | term {s : TermRun V} {lock : ErrorCode} {env : HoldEntry.ReleaseEnv} :
      TermStep t id s (.term lock env) (s.terminate lock env).2
  | elapse {s : TermRun V} {port : Port} (h : Seat.Spares t id s.seat.phase s.seat.port port) :
      TermStep t id s (.elapse port) (s.withPort port)

/-- The runs of a command with the task `t` on the channel `id`. -/
def termSystem (V : Type) (t : ℕ) (id : ChannelId) : System (TermRun V) (TermAct V) where
  init s := s.Created t id ∧ s.seat.port.channels.lookup id ≠ none
  next := TermStep t id

namespace TermRun

variable {V : Type} {t : ℕ} {id : ChannelId} {s s' : TermRun V}

/-- The command is in step with the schedule, with its channel and with X-Plane. -/
structure Sound (t : ℕ) (id : ChannelId) (s : TermRun V) : Prop where
  seat : s.seat.Sound t id
  hold : ∀ s', s = .hold s' → s'.Sound t

theorem Sound.of_works {f : Seat} (h : f.Sound t id) (hw : f.Works s.seat)
    (hother : ∀ s', s ≠ .hold s') : s.Sound t id :=
  ⟨h.works hw, fun s' hs => absurd hs (hother s')⟩

/-- A command on a channel that it knows. -/
theorem files_of_known {channelId : ChannelId} {channels : ChannelsTable}
    (hlookup : channels.lookup id ≠ none) (hid : channelId = id) :
    Seat.Files id channelId channels := by
  obtain ⟨channel, hchannel⟩ := Option.ne_none_iff_exists'.1 hlookup
  exact ⟨channel, hchannel, .inl hid⟩

theorem Created.sound (h : s.Created t id) (hlookup : s.seat.port.channels.lookup id ≠ none) :
    s.Sound t id := by
  cases s with
  | hold s =>
    obtain ⟨hcreated, hid⟩ := h
    refine ⟨⟨hcreated.sound.schedules, files_of_known hlookup hid⟩, fun s' hs => ?_⟩
    cases hs
    exact hcreated.sound
  | drqv s =>
    obtain ⟨lib, blank, request, hcreated, hrequest⟩ := h
    obtain ⟨now, -, hconfigured⟩ := hcreated.configured
    obtain ⟨-, hid, -⟩ := Drqv.configure_ok hconfigured
    exact ⟨⟨.inl ⟨hcreated.task, hcreated.scheduled⟩, files_of_known hlookup (hid.trans hrequest)⟩,
      fun s' hs => nomatch hs⟩
  | drmu s =>
    rcases h with ⟨hid, htask, hcount⟩ | ⟨s₀, lock, work, hid, htask, hcount, hlookup₀, rfl⟩
    · exact ⟨⟨.inl ⟨htask, hcount⟩, files_of_known hlookup hid⟩, fun s' hs => nomatch hs⟩
    · have hsound : (Drmu.seat s₀).Sound t id :=
        ⟨.inr ⟨htask, hcount⟩, files_of_known hlookup₀ hid⟩
      exact .of_works hsound (.ends _ lock) fun s' hs => nomatch hs
  | drls s =>
    obtain ⟨hid, htask, hcount⟩ := h
    exact ⟨⟨.inl ⟨htask, hcount⟩, files_of_known hlookup hid⟩, fun s' hs => nomatch hs⟩

theorem terminate_sound (h : s.Sound t id) (lock : ErrorCode) (env : HoldEntry.ReleaseEnv) :
    (s.terminate lock env).2.Sound t id := by
  cases s with
  | hold s =>
    have hs := HoldRun.terminate_sound (h.hold s rfl) lock env
    have hstep : HoldStep t s (.term lock env) (s.terminate lock env).2 := .term
    have hvacates := hstep.vacates fun port himpossible => nomatch himpossible
    refine ⟨⟨hs.schedules, h.seat.files.vacates hvacates⟩, fun s' hs' => ?_⟩
    cases hs'
    exact hs
  | drqv s => exact .of_works h.seat ((Seat.Tells.refl _).ends lock) fun s' hs => nomatch hs
  | drmu s => exact .of_works h.seat ((Seat.Tells.refl _).ends lock) fun s' hs => nomatch hs
  | drls s => exact .of_works h.seat ((Seat.Tells.refl _).ends lock) fun s' hs => nomatch hs

end TermRun

theorem TermStep.sound {V : Type} {t : ℕ} {id : ChannelId} {s s' : TermRun V} {act : TermAct V}
    (h : s.Sound t id) (hn : TermStep t id s act s') : s'.Sound t id := by
  cases hn with
  | @hold s s' act hstep hown =>
    have hs := hstep.sound (h.hold s rfl)
    refine ⟨⟨hs.schedules, h.seat.files.vacates (hstep.vacates hown)⟩, fun s'' hs'' => ?_⟩
    cases hs''
    exact hs
  | @drqv s event => exact .of_works h.seat (Drqv.step_works t s event) fun s' hs => nomatch hs
  | @drmuFlightloop s work hrun =>
    exact .of_works h.seat (Drmu.processFlightloop_works work s) fun s' hs => nomatch hs
  | @drmuPost s lock work hrun =>
    exact .of_works h.seat (Drmu.processPost_works lock work s) fun s' hs => nomatch hs
  | @drls s lock work hrun =>
    exact .of_works h.seat (Drls.process_works lock work s) fun s' hs => nomatch hs
  | @term _ lock env => exact TermRun.terminate_sound h lock env
  | @elapse _ port hspares =>
    cases s with
    | hold s =>
      have hstep : HoldStep t s (.elapse port) { s with port := port } := .elapse hspares.count
      have hs := hstep.sound (h.hold s rfl)
      refine ⟨h.seat.spares hspares, fun s' hs' => ?_⟩
      cases hs'
      exact hs
    | drqv s => exact ⟨h.seat.spares hspares, fun s' hs => nomatch hs⟩
    | drmu s => exact ⟨h.seat.spares hspares, fun s' hs => nomatch hs⟩
    | drls s => exact ⟨h.seat.spares hspares, fun s' hs => nomatch hs⟩

theorem termRun_sound_of_reachable {V : Type} {t : ℕ} {id : ChannelId} {s : TermRun V}
    (h : (termSystem V t id).Reachable s) : s.Sound t id :=
  h.invariant (fun _ hs => hs.1.sound hs.2) fun _ _ _ _ hs hn => hn.sound hs

/-- The session has a command on its channel `id` that a TERM request finds, and `cmds` terminates
it with the result `err`, leaving these channels. -/
def Performs {μ : Type} (cmds : Commands μ) (w : World μ) (id : ChannelId) (err : ErrorCode)
    (channels : ChannelsTable) : Prop :=
  ∃ channel command, w.channels.lookup id = some channel ∧ channel.command = some command ∧
    channel.state ≠ .closed ∧ channel.destructionRequested = false ∧
    ((cmds.terminate command channel.commandRef).run w).val = err ∧
    ((cmds.terminate command channel.commandRef).run w).state.channels = channels ∧
    ((cmds.terminate command channel.commandRef).run w).state.closing = w.closing

/-- **Terminated commands free their channels.**  In every run of a CMTR, CMHD, DRQV, DRMU or DRLS
command: if the schedule can be locked and releases can be queued, its termination succeeds and
requests the end of its channel, unless it is a CMHD command that has not been initialized.  A TERM
request that is answered by such a termination does not close the connection, and when maintenance
runs next, the identifier is free again. -/
theorem terminate_frees_channel {V : Type} {t : ℕ} {id : ChannelId} {s : TermRun V}
    (h : (termSystem V t id).Reachable s) {env : HoldEntry.ReleaseEnv}
    (hresults : ∀ a, env.results a = .ok) (hpending : s.destructionPending = false) :
    ((s.terminate .none env).1 = .none ∧
        Seat.Marked id (s.terminate .none env).2.seat.port.channels ↔ s.Releasable) ∧
    (s.Releasable → ∀ (μ : Type) (cmds : Commands μ) (destroy : Command → Option ℕ → M μ ErrorCode)
      (w : World μ) (request : Request), request.channelId = id →
      Performs cmds w id (s.terminate .none env).1 (s.terminate .none env).2.seat.port.channels →
      let w' := ((Server.handleTerminationRequest cmds request).run w).state
      w'.closing = w.closing ∧
        (Server.Destroys destroy → Server.Filed w'.channels → ¬ w'.refuses .session →
          ((Server.maintainSession destroy).run w').state.channels.lookup id = none)) := by
  have hsound := termRun_sound_of_reachable h
  have hends : (s.terminate .none env).1 = .none ∧
      Seat.Marked id (s.terminate .none env).2.seat.port.channels ↔ s.Releasable := by
    cases s with
    | hold s =>
      have hrun := hsound.hold s rfl
      have hmarked := hsound.seat.files.marked
      obtain ⟨command, port, xp, ended⟩ := s
      cases command with
      | cmtr command =>
        obtain ⟨hnone, hchannels⟩ :=
          Cmtr.terminate_ok hrun.command hrun.schedules rfl hresults hpending
        exact iff_of_true ⟨hnone, hchannels ▸ hmarked⟩ trivial
      | cmhd command =>
        obtain ⟨hiff, hchannels⟩ :=
          Cmhd.terminate_ok hrun.command hrun.schedules rfl hresults hpending
        exact ⟨fun hok => hiff.1 hok.1, fun hinit => ⟨hiff.2 hinit, hchannels hinit ▸ hmarked⟩⟩
    | drqv s => exact iff_of_true ((hsound.seat.terminate .none).2 rfl) trivial
    | drmu s => exact iff_of_true ((hsound.seat.terminate .none).2 rfl) trivial
    | drls s => exact iff_of_true ((hsound.seat.terminate .none).2 rfl) trivial
  refine ⟨hends, fun hreleasable μ cmds destroy w request hrequest hperforms => ?_⟩
  obtain ⟨hnone, channel', hmarked, hend⟩ := hends.2 hreleasable
  obtain ⟨channel, command, hid, hcommand, hopen, hkept, herr, hchannels, hclosing⟩ := hperforms
  have hrun := Server.handleTerminationRequest_open (hrequest ▸ hid) hcommand hopen hkept
    (herr.trans hnone)
  dsimp only
  rw [hrun]
  refine ⟨hclosing, fun hdestroy hfiled hlock => ?_⟩
  exact Server.maintainSession_frees hdestroy hfiled hlock (hchannels ▸ hmarked) hend

/-- A CMHD command that is to hold one X-Plane command, on the channel `aaaa`. -/
def cmhdCreated : HoldRun where
  command := .cmhd
    { channelId := 0, task := some 9, initialized := false, failed := false
      entries := [⟨1, bytes "a", false, none⟩] }
  port := ⟨.single ⟨0, .initial, false, some .cmhd, some 1⟩,
    fun phase => if phase = holdPhase then [9] else [], []⟩
  xp := ⟨⟨false, false, []⟩, [], []⟩
  ended := false

/-- Releases can be queued. -/
def releases : HoldEntry.ReleaseEnv := ⟨fun _ => .ok, fun _ => []⟩

theorem cmhdCreated_reachable : (termSystem ℤ 9 0).Reachable (.hold cmhdCreated) := by
  refine .start
    ⟨⟨⟨⟨rfl, rfl⟩, rfl, rfl, by decide, by decide, by decide, ?_, ?_, ⟨rfl, fun _ => rfl⟩, rfl⟩,
      rfl⟩, ?_⟩
  · intro call hcall
    cases hcall
  · intro task htask
    cases htask
  · decide +kernel

/-- A CMHD command that is terminated before the first flight loop refuses: the end of its channel
is not requested. -/
theorem terminate_refused_before_hold :
    let s : TermRun ℤ := .hold cmhdCreated
    (termSystem ℤ 9 0).Reachable s ∧ (∀ a, releases.results a = .ok) ∧
    s.destructionPending = false ∧
      (s.terminate .none releases).1 = .unspecific ∧
      ¬ Seat.Marked 0 (s.terminate .none releases).2.seat.port.channels := by
  refine ⟨cmhdCreated_reachable, fun _ => rfl, rfl, by decide +kernel, ?_⟩
  rintro ⟨channel, hid, hmarked⟩
  have hlookup : (cmhdCreated.terminate .none releases).2.port.channels.lookup 0 =
      some ⟨0, .initial, false, some .cmhd, some 1⟩ := by decide +kernel
  obtain rfl := Option.some.inj (hlookup.symm.trans hid)
  cases hmarked

/-- Once it holds the X-Plane command, it can be terminated. -/
theorem terminate_frees_channel_of_held :
    ∃ s : TermRun ℤ, s.destructionPending = false ∧ (s.terminate .none releases).1 = .none ∧
      Seat.Marked 0 (s.terminate .none releases).2.seat.port.channels := by
  have h := cmhdCreated_reachable.step
    (TermAct.hold (.flightloop 0 (fun _ => some 7) .none))
    (TermStep.hold (HoldStep.flightloop (s := cmhdCreated) (by decide)) fun port hact =>
      nomatch hact)
  have hreleases : ∀ a, releases.results a = .ok := fun _ => rfl
  obtain ⟨hends, -⟩ := terminate_frees_channel h hreleases rfl
  obtain ⟨hnone, hmarked⟩ := hends.2 rfl
  exact ⟨_, rfl, hnone, hmarked⟩

end XprcServer
