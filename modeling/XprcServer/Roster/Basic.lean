import XprcServer.Commands.Termination
import XprcServer.Commands.Drci
import XprcServer.Commands.CmrgLifecycle

/-!
# The commands of a session

All commands that a session has started, with everything outside of them that refers to them: the
tasks of the schedule, the data proxies and the proxies of X-Plane commands.  The functions of the
commands are those of their own modules, applied to what they share.

Commands are named by their address, and no address is used twice: a pointer to a command that was
freed is not one to a command that was allocated later.  What the server does to a command that is
not there any more is left out; `destroy_session` is about which of the references remain.

The schedule, the registry of data proxies and that of X-Plane commands can be locked
(`Surroundings`).  Nothing is assumed of the lock of the session: it fails while the session is
destroyed.

* `Roster.destroySession` : `destroy_session`, with the walk over the channels table;
* `rosterSystem` : the runs of a session before it is destroyed.
-/

namespace XprcServer

open Lib

/-! ### Single commands -/

/-- A command in memory, other than CMRG. -/
inductive PortCommand (V : Type) where
  | hold (command : HoldCommand)
  | drci (command : CommandDrci)
  | drqv (command : CommandDrqv V)
  | drmu (channelId : ChannelId) (task : Option ℕ) (fields : DrmuFields)
  | drls (channelId : ChannelId) (task : Option ℕ) (fields : DrlsFields)

/-- What a command knows of the outside: its channel, its task and when that runs, its data proxy,
and the proxy of its X-Plane command. -/
structure Ties where
  channelId : ChannelId
  task : Option ℕ
  phase : TaskSchedulePhase
  proxy : Option ℕ
  xpcmd : Option ℕ
  deriving DecidableEq, Repr

namespace PortCommand

variable {V : Type}

/-- What the command knows of the outside. -/
def ties : PortCommand V → Ties
  | hold command => ⟨command.channelId, command.task, holdPhase, none, none⟩
  | drci command =>
    ⟨command.channelId, command.registrationTask, Drci.registrationPhase, command.proxy, none⟩
  | drqv command => ⟨command.channelId, command.task, command.phase, none, none⟩
  | drmu channelId task fields => ⟨channelId, task, fields.phase, none, none⟩
  | drls channelId task _ => ⟨channelId, task, Drls.schedulePhase, none, none⟩

/-- Only CMRG has a proxy of an X-Plane command. -/
@[simp] theorem ties_xpcmd (command : PortCommand V) : command.ties.xpcmd = none := by
  cases command <;> rfl

/-- The descriptor of the command. -/
def descriptor : PortCommand V → Command
  | hold (.cmtr _) => .cmtr
  | hold (.cmhd _) => .cmhd
  | drci _ => .drci
  | drqv _ => .drqv
  | drmu _ _ _ => .drmu
  | drls _ _ _ => .drls

/-- A DRCI command of the session has not tried to register a proxy yet; of other commands nothing
is said. -/
def Unregistered (session : ℕ) : PortCommand V → Prop
  | drci command => command.session = session ∧ command.failed = false ∧ command.registered = false
  | _ => True

end PortCommand

/-- A command and what it works on. -/
structure Desk (V : Type) where
  command : PortCommand V
  port : Port
  xp : XpSide
  registry : DataproxyRegistry

/-- A call of the task of a command, in a flight loop or in post-processing, with what the function
finds outside. -/
inductive TaskRun (V : Type) where
  | holdFlightloop (millis : ℤ) (findCommand : List UInt8 → Option ℕ) (confirm : ErrorCode)
  | holdPost (env : HoldEntry.ReleaseEnv)
  | drciFlightloop (reserving : Outcomes) (registerDataAccessor : Option ℕ) (confirm : ErrorCode)
  | drciPost
  | drqvFlightloop (now : ℤ) (xp : XpDatarefs V)
  | drqvPost (submitted : ErrorCode) (env : EncodeEnv V)
  | drmuFlightloop (work : Work DrmuFields)
  | drmuPost (work : Work DrmuFields)
  | drls (work : Work DrlsFields)

namespace Desk

variable {V : Type}

/-- A command that holds X-Plane commands, on a desk with what it shares. -/
def ofHold (d : Desk V) (r : HoldRun) : Desk V :=
  { d with command := .hold r.command, port := r.port, xp := r.xp }

/-- The same for DRCI. -/
def ofDrci (d : Desk V) (r : Drci.State) : Desk V :=
  { d with command := .drci r.command, port := r.port, registry := r.registry }

/-- The same for DRQV. -/
def ofDrqv (d : Desk V) (r : Drqv.State V) : Desk V :=
  { d with command := .drqv r.command, port := r.port }

/-- The same for DRMU. -/
def ofDrmu (d : Desk V) (r : Stream DrmuFields) : Desk V :=
  { d with command := .drmu r.channelId r.task r.fields, port := r.port }

/-- The same for DRLS. -/
def ofDrls (d : Desk V) (r : Stream DrlsFields) : Desk V :=
  { d with command := .drls r.channelId r.task r.fields, port := r.port }

/-- `terminate` of the command -/
def terminate (env : HoldEntry.ReleaseEnv) (d : Desk V) : Desk V :=
  match d.command with
  | .hold command => d.ofHold (HoldRun.terminate .none env ⟨command, d.port, d.xp, false⟩).2
  | .drci command => d.ofDrci (Drci.terminate .none (.locking none) ⟨command, d.registry, d.port⟩).2
  | .drqv command => d.ofDrqv (Drqv.terminate .none ⟨command, d.port⟩).2
  | .drmu id task fields => d.ofDrmu (Drmu.terminate .none ⟨id, task, fields, d.port⟩).2
  | .drls id task fields => d.ofDrls (Drls.terminate .none ⟨id, task, fields, d.port⟩).2

/-- `on_processing` of the task of the command at `ref`; a call is one of the function of the
command. -/
def process (ref : ℕ) (run : TaskRun V) (d : Desk V) : Desk V :=
  match d.command, run with
  | .hold command, .holdFlightloop millis findCommand confirm =>
    d.ofHold (HoldRun.processFlightloop millis findCommand confirm ⟨command, d.port, d.xp, false⟩)
  | .hold command, .holdPost env =>
    d.ofHold (HoldRun.processPost .none env ⟨command, d.port, d.xp, false⟩)
  | .drci command, .drciFlightloop reserving registerDataAccessor confirm =>
    d.ofDrci (Drci.processFlightloop ref reserving (.locking registerDataAccessor) confirm
      ⟨command, d.registry, d.port⟩)
  | .drci command, .drciPost =>
    d.ofDrci (Drci.processPost .none (.locking none) ⟨command, d.registry, d.port⟩)
  | .drqv command, .drqvFlightloop now xp =>
    d.ofDrqv (Drqv.processFlightloop xp now ⟨command, d.port⟩)
  | .drqv command, .drqvPost submitted env =>
    d.ofDrqv (Drqv.processPost .none submitted env ⟨command, d.port⟩)
  | .drmu id task fields, .drmuFlightloop work =>
    d.ofDrmu (Drmu.processFlightloop work ⟨id, task, fields, d.port⟩)
  | .drmu id task fields, .drmuPost work =>
    d.ofDrmu (Drmu.processPost .none work ⟨id, task, fields, d.port⟩)
  | .drls id task fields, .drls work =>
    d.ofDrls (Drls.process .none work ⟨id, task, fields, d.port⟩)
  | _, _ => d

end Desk

/-! ### All commands -/

/-- `CMRG_TASK_PHASE` -/
def Cmrg.taskPhase : TaskSchedulePhase := .beforeFlightModel

/-- What a CMRG command knows of the outside. -/
def CommandCmrg.ties (command : CommandCmrg) : Ties :=
  ⟨command.channelId, command.task, Cmrg.taskPhase, none, command.xpcmd⟩

/-- The locks of the schedule and of the registry of X-Plane commands are granted. -/
structure World.Grants {μ : Type} (w : World μ) : Prop where
  mtxLock : ∀ n, w.env.mtxLock n = true
  schedule : w.env.pendingFrom .schedule = none
  registry : w.env.pendingFrom .registry = none

/-- What a termination finds outside: the results of queueing releases, and the world in which a
CMRG command is terminated, but for its channels and its memory. -/
structure Surroundings where
  release : HoldEntry.ReleaseEnv
  world : World CmrgMemory
  grants : world.Grants

/-- A session with its commands, and with what they share with other sessions.  `references` is the
field of the tasks, `memory` holds the CMRG commands and all proxies of X-Plane commands, and
`created` are the commands that were allocated for the session so far. -/
structure Roster (V : Type) where
  session : ℕ
  port : Port
  xp : XpSide
  registry : DataproxyRegistry
  memory : CmrgMemory
  handlers : List CommandHandler
  commands : ℕ → Option (PortCommand V)
  references : ℕ → Option ℕ
  created : List ℕ

namespace Roster

variable {V : Type}

/-- What a command of the session works on. -/
def desk (s : Roster V) (command : PortCommand V) : Desk V := ⟨command, s.port, s.xp, s.registry⟩

/-- The session once the command `ref` has worked. -/
def withDesk (s : Roster V) (ref : ℕ) (d : Desk V) : Roster V :=
  { s with
    port := d.port
    xp := d.xp
    registry := d.registry
    commands := Function.update s.commands ref (some d.command) }

/-- The world in which CMRG commands run. -/
def world (s : Roster V) (w : World CmrgMemory) : World CmrgMemory :=
  { w with
    channels := s.port.channels
    memory := { s.memory with queue := s.port.queues Cmrg.taskPhase } }

/-- The session once code has run in that world. -/
def absorb (s : Roster V) (x : XpWorld) : Roster V :=
  { s with
    port := { s.port with
      channels := x.world.channels
      queues := Function.update s.port.queues Cmrg.taskPhase x.world.memory.queue }
    memory := x.world.memory
    handlers := x.handlers }

/-- Code of CMRG and of the registry of X-Plane commands. -/
def perform {α : Type} (p : X α) (w : World CmrgMemory) (s : Roster V) : Roster V :=
  s.absorb (p.run ⟨s.world w, s.handlers⟩).state

/-- `terminate` of the command that a channel refers to -/
def terminate (u : Surroundings) (commandRef : Option ℕ) (s : Roster V) : Roster V :=
  match commandRef with
  | none => s
  | some ref =>
    match s.commands ref with
    | some command => s.withDesk ref ((s.desk command).terminate u.release)
    | none => s.perform (X.lift (Cmrg.terminate (some ref))) u.world

/-- `destroy` of the command that a channel refers to: its memory is freed. -/
def destroy (commandRef : Option ℕ) (s : Roster V) : Roster V :=
  match commandRef with
  | none => s
  | some ref =>
    { s with
      commands := Function.update s.commands ref none
      memory := { s.memory with cmrg := Function.update s.memory.cmrg ref none } }

/-! ### What refers to a command -/

/-- The events of the X-Plane command with this proxy go to the command. -/
def Calls (s : Roster V) (ref a : ℕ) : Prop :=
  ∃ p, s.memory.xpcommands a = some p ∧ p.callback = some ref ∧
    (p.state = .created ∨ p.state = .registered)

/-- Nothing outside refers to the command. -/
structure Clear (s : Roster V) (ref : ℕ) : Prop where
  tasks : ∀ phase, ∀ t ∈ s.port.queues phase, s.references t ≠ some ref
  proxies : ∀ (b : ℕ) p, s.registry.proxies[b]? = some p → ¬ p.HeldBy ref
  xpcommands : ∀ a, ¬ s.Calls ref a

/-- The session itself holds no data proxy. -/
def Disowned (s : Roster V) : Prop :=
  ∀ p ∈ s.registry.proxies, p.state = .reserved ∨ p.state = .registered →
    p.ownerSession ≠ some s.session

/-- An address that is not in use, neither for a command nor for a task. -/
structure Fresh (s : Roster V) (a : ℕ) : Prop where
  clear : s.Clear a
  commands : s.commands a = none
  cmrg : s.memory.cmrg a = none
  created : a ∉ s.created
  unreferenced : ∀ t, s.references t ≠ some a
  task : s.references a = none
  unscheduled : ∀ phase, a ∉ s.port.queues phase
  xpcommands : s.memory.xpcommands a = none

/-! ### Destruction -/

/-- The session while it is being destroyed, with the references that `destroy` was called with. -/
structure Destruction (V : Type) where
  roster : Roster V
  calls : List (Option ℕ)

/-- `destroy_session_channel`, while the session is pending destruction.  The result of the
termination is ignored. -/
def destroySessionChannel (u : Surroundings) (channel : Channel)
    (d : Destruction V) : Destruction V :=
  if channel.command.isNone then d
  else
    let roster :=
      if channel.destructionRequested then d.roster else d.roster.terminate u channel.commandRef
    { roster := roster.destroy channel.commandRef
      calls := d.calls ++ [channel.commandRef] }

/-- `destroy_channels_subtable`: the loop over the channels of the sub-table `i` -/
def destroyChannelsSubtable (u : ChannelId → Surroundings) (i : Fin channelsNumSubtables) :
    List (Fin channelsSegment) → Destruction V → Destruction V
  | [], d => d
  | j :: rest, d =>
    match (d.roster.port.channels.subtables i).bind fun sub => sub.channels j with
    | none => destroyChannelsSubtable u i rest d
    | some channel => destroyChannelsSubtable u i rest
        (destroySessionChannel (u channel.id) channel d)

/-- `destroy_channels_table`: the loop over the sub-tables -/
def destroyChannelsTable (u : ChannelId → Surroundings) :
    List (Fin channelsNumSubtables) → Destruction V → Destruction V
  | [], d => d
  | i :: rest, d =>
    destroyChannelsTable u rest (destroyChannelsSubtable u i (List.finRange channelsSegment) d)

/-- `destroy_session`; the table is freed at the end. -/
def destroySession (u : ChannelId → Surroundings) (s : Roster V) : Destruction V :=
  let d := destroyChannelsTable u (List.finRange channelsNumSubtables) ⟨s, []⟩
  { d with roster := { d.roster with port := { d.roster.port with channels := .empty } } }

/-! ### Runs -/

/-- Nothing happened to a command, and to what refers to it; its proxies, if registered, were left
alone. -/
structure Keeps (ref : ℕ) (s s' : Roster V) : Prop where
  commands : s'.commands ref = s.commands ref
  cmrg : (s'.memory.cmrg ref).map CommandCmrg.ties = (s.memory.cmrg ref).map CommandCmrg.ties
  references : ∀ t, s'.references t = some ref ↔ s.references t = some ref
  queues : ∀ phase t, s.references t = some ref →
    (s'.port.queues phase).count t = (s.port.queues phase).count t
  held : ∀ (b : ℕ) p', s'.registry.proxies[b]? = some p' → p'.HeldBy ref →
    ∃ p, s.registry.proxies[b]? = some p ∧ p.HeldBy ref
  own : ∀ (b : ℕ) p, s.registry.proxies[b]? = some p → p.HeldBy ref → p.state = .registered →
    s'.registry.proxies[b]? = some p
  calls : ∀ a, s'.Calls ref a ↔ s.Calls ref a

/-- What other sessions, X-Plane and messages do: nothing that concerns the commands of the
session. -/
structure Elapses (s s' : Roster V) : Prop where
  session : s'.session = s.session
  created : s'.created = s.created
  registry : s'.registry = s.registry
  channels : s.port.channels.Resembles s'.port.channels
  keeps : ∀ ref ∈ s.created, Keeps ref s s'

/-- An operation on the registry of data proxies that is none of the session and its commands. -/
def Foreign (s : Roster V) (call : DataproxyCall) : Prop :=
  (∀ reservation, call = .reserve reservation → reservation.session ≠ some s.session) ∧
    ∀ ref ∈ s.created, ∀ own : Option ℕ,
      (∀ a, own = some a → ∃ p, s.registry.proxies[a]? = some p ∧ p.HeldBy ref) →
        call.Foreign ref own

/-- A request has put a new channel into the table; the identifier was free. -/
structure Puts (channels : ChannelsTable) (id : ChannelId) (channels' : ChannelsTable) : Prop where
  free : channels.lookup id = none
  put : ∃ alloc, putChannel alloc (some channels) (some ⟨id, .initial, false, none, none⟩) =
    some (true, some channels')

/-- The table once the command of the new channel is known. -/
def opened (channels : ChannelsTable) (id : ChannelId) (descriptor : Option Command)
    (commandRef : Option ℕ) : ChannelsTable :=
  channels.modify id fun channel => { channel with command := descriptor, commandRef := commandRef }

/-- A new command at `ref`, with the channels as they are then. -/
def enroll (s : Roster V) (channels : ChannelsTable) (ref : ℕ)
    (command : PortCommand V) : Roster V :=
  { s with
    port := { s.port with
      channels := opened channels command.ties.channelId (some command.descriptor) (some ref) }
    commands := Function.update s.commands ref (some command)
    created := ref :: s.created }

/-- The end of the creation of a command: the task `t` is scheduled. -/
def schedule (s : Roster V) (ref t : ℕ) (phase : TaskSchedulePhase) : Roster V :=
  { s with
    port := { s.port with
      queues := Function.update s.port.queues phase (s.port.queues phase ++ [t]) }
    references := Function.update s.references t (some ref) }

/-- The creation of a CMRG command, and what the server does then: a command that was created is
stored on the channel, and the channel of one that was not is removed, unless the client could not
be told. -/
def createCmrg (s : Roster V) (channels : ChannelsTable) (request : Request) (version : ℕ)
    (w : World CmrgMemory) (told : Bool) : Roster V :=
  let r := (X.lift (Cmrg.create request version)).run
    ⟨{ s.world w with channels := opened channels request.channelId (some .cmrg) none }, s.handlers⟩
  let s' := { s.absorb r.state with
    -- a creation may fail before the command is allocated
    created := if s.memory.next < r.state.world.memory.next then s.memory.next :: s.created else
    s.created }
  match r.val.2 with
  | some ref =>
    let task := (r.state.world.memory.cmrg ref).bind CommandCmrg.task
    { s' with
      port := { s'.port with
        channels := opened s'.port.channels request.channelId (some .cmrg) (some ref) }
      references := fun t => if task = some t then some ref else s.references t }
  | none =>
    if told then
      { s' with port := { s'.port with channels := s'.port.channels.erase request.channelId } }
    else s'

end Roster

/-- What can happen to a session. -/
inductive RosterAct (V : Type) where
  | create (ref t : ℕ) (command : PortCommand V)
  | complete (ref : ℕ) (id : ChannelId) (fields : DrmuFields) (work : Work DrmuFields)
  | createCmrg (channels : ChannelsTable) (request : Request) (version : ℕ) (w : World CmrgMemory)
      (told : Bool)
  | refuse (id : ChannelId) (command : Option Command)
  | dangle (ref : ℕ) (id : ChannelId)
  | task (ref : ℕ) (run : TaskRun V)
  | cmrgFlightloop (ref : ℕ) (findCommand createCommand : Option ℕ) (w : World CmrgMemory)
  | cmrgPost (ref : ℕ) (u : Surroundings)
  | event (inCommand : ℕ) (inPhase : XplmCommandPhase) (inRefcon : Option ℕ) (w : World CmrgMemory)
  | term (id : ChannelId) (u : Surroundings)
  | maintain (id : ChannelId)
  | unregisterDropped (w : World CmrgMemory)
  | dataproxy (o : Outcomes) (call : DataproxyCall)
  | elapse

/-- The steps.  A task runs while it is scheduled.  The commands that a request starts get addresses
that nobody uses.  A creation that fails, or a command that is complete at once, leaves a channel
without a command, if any; only DRMU may leave one that it has freed.  Maintenance takes a step for
each channel it removes. -/
inductive RosterStep {V : Type} : Roster V → RosterAct V → Roster V → Prop
  | create {s : Roster V} {ref t : ℕ} {command : PortCommand V} {channels : ChannelsTable}
      (hput : Roster.Puts s.port.channels command.ties.channelId channels)
      (hfresh : s.Fresh ref) (htask : s.Fresh t) (hne : t ≠ ref)
      (hties : command.ties.task = some t ∧ command.ties.proxy = none)
      (hunregistered : command.Unregistered s.session) :
      RosterStep s (.create ref t command)
        ((s.enroll channels ref command).schedule ref t command.ties.phase)
  | complete {s : Roster V} {ref : ℕ} {id : ChannelId} {fields : DrmuFields}
      {work : Work DrmuFields} {channels : ChannelsTable}
      (hput : Roster.Puts s.port.channels id channels) (hfresh : s.Fresh ref) :
      RosterStep s (.complete ref id fields work)
        (let s' := s.enroll channels ref (.drmu id none fields)
        s'.withDesk ref ((s'.desk (.drmu id none fields)).ofDrmu
          (Drmu.completeWithoutSchedule .none work ⟨id, none, fields, s'.port⟩).2))
  | createCmrg {s : Roster V} {channels : ChannelsTable} {request : Request} {version : ℕ}
      {w : World CmrgMemory} {told : Bool}
      (hput : Roster.Puts s.port.channels request.channelId channels)
      (hfresh : ∀ a, s.memory.next ≤ a → s.Fresh a) :
      RosterStep s (.createCmrg channels request version w told)
        (s.createCmrg channels request version w told)
  | refuse {s : Roster V} {id : ChannelId} {command : Option Command} {channels : ChannelsTable}
      (hput : Roster.Puts s.port.channels id channels) :
      RosterStep s (.refuse id command)
        { s with port := { s.port with channels := Roster.opened channels id command none } }
  | dangle {s : Roster V} {ref : ℕ} {id : ChannelId} {channels : ChannelsTable}
      (hput : Roster.Puts s.port.channels id channels) (hfresh : s.Fresh ref) :
      RosterStep s (.dangle ref id)
        { s with
          port := { s.port with channels := Roster.opened channels id (some .drmu) (some ref) }
          created := ref :: s.created }
  | task {s : Roster V} {ref t : ℕ} {run : TaskRun V} {command : PortCommand V}
      {phase : TaskSchedulePhase} (ht : t ∈ s.port.queues phase)
      (hreference : s.references t = some ref)
      (hown : ref ∈ s.created) (hcommand : s.commands ref = some command) :
      RosterStep s (.task ref run) (s.withDesk ref ((s.desk command).process ref run))
  | cmrgFlightloop {s : Roster V} {ref t : ℕ} {findCommand createCommand : Option ℕ}
      {w : World CmrgMemory} (ht : t ∈ s.port.queues Cmrg.taskPhase)
      (hreference : s.references t = some ref) (hown : ref ∈ s.created)
      (hcommand : s.memory.cmrg ref ≠ none) :
      RosterStep s (.cmrgFlightloop ref findCommand createCommand w)
        (s.perform (Cmrg.processFlightloop ref findCommand createCommand) w)
  | cmrgPost {s : Roster V} {ref t : ℕ} {u : Surroundings} (ht : t ∈ s.port.queues Cmrg.taskPhase)
      (hreference : s.references t = some ref) (hown : ref ∈ s.created)
      (hcommand : s.memory.cmrg ref ≠ none) :
      RosterStep s (.cmrgPost ref u) (s.perform (X.lift (Cmrg.processPost ref)) u.world)
  | event {s : Roster V} {inCommand : ℕ} {inPhase : XplmCommandPhase} {inRefcon : Option ℕ}
      {w : World CmrgMemory} :
      RosterStep s (.event inCommand inPhase inRefcon w)
        (s.perform
          (X.lift (Xpcommands.xpCommandHandler Cmrg.handleEvent inCommand inPhase inRefcon)) w)
  | term {s : Roster V} {id : ChannelId} {u : Surroundings} {channel : Channel}
      (hid : s.port.channels.lookup id = some channel) (hopen : channel.state ≠ .closed)
      (hkept : channel.destructionRequested = false) :
      RosterStep s (.term id u) (s.terminate u channel.commandRef)
  | maintain {s : Roster V} {id : ChannelId} {channel : Channel} {ref : ℕ}
      {channels : ChannelsTable}
      (hid : s.port.channels.lookup id = some channel) (hend : channel.destructionRequested = true)
      (href : channel.commandRef = some ref)
      (hpop : popChannel (some s.port.channels) channel.id = some (some channel, some channels)) :
      RosterStep s (.maintain id)
        { s.destroy (some ref) with port := { s.port with channels := channels } }
  | unregisterDropped {s : Roster V} {w : World CmrgMemory} :
      RosterStep s (.unregisterDropped w) (s.perform Xpcommands.unregisterDroppedXpcommands w)
  | dataproxy {s : Roster V} {o : Outcomes} {call : DataproxyCall} (h : s.Foreign call) :
      RosterStep s (.dataproxy o call) { s with registry := (call.exec o s.registry).2 }
  | elapse {s s' : Roster V} (h : s.Elapses s') : RosterStep s .elapse s'

/-- The runs of a session, from before it has any channel. -/
def rosterSystem (V : Type) : System (Roster V) (RosterAct V) where
  init s := s.created = [] ∧ (∀ id, s.port.channels.lookup id = none) ∧ s.Disowned
  next := RosterStep

/-- X-Plane accepts the dataref whenever a DRCI command has reserved its proxy, no creation of a
CMRG command fails after its proxy was listed, and none of a DRMU command leaves its channel
behind. -/
def Roster.Fulfils {V : Type} (s : Roster V) : RosterAct V → Prop
  | .task ref (.drciFlightloop reserving registerDataAccessor _) =>
    ∀ command, s.commands ref = some (.drci command) → command.failed = false →
      command.registered = false →
      (s.registry.reserveDataproxy reserving (Drci.reservation ref command)).1.isSome →
      registerDataAccessor.isSome
  | .createCmrg channels request version w _ =>
    Cmrg.SchedulesTask request version
      { s.world w with channels := Roster.opened channels request.channelId (some .cmrg) none }
  | .dangle _ _ => False
  | _ => True

end XprcServer
