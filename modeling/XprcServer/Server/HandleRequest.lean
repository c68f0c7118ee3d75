import XprcServer.Requests
import XprcServer.Session.Messages

/-!
# Handling a request

`handle_request` of `server.c`, executed by the receive thread of a connection for each accepted
line: it locks the task schedule and the session, and creates or terminates a command.

The functions of the commands are a parameter (`Commands`).  All that is asked of them is what every
command does: it leaves the locks as it found them, takes no lock in an order of its own
(`commandOk`), does not remove the channel it is created on, and remembers the identifier of that
channel.

If the session cannot be locked, `handle_request` returns without unlocking the schedule;
`handleRequest_depth_iff` says that this is the only way in which it leaves a lock behind.
-/

namespace XprcServer

open Lib

/-! ### The lock discipline of commands -/

/-- What a command may do with the locks, given that its caller holds the schedule and the session:
it takes these two again at will, and the registry once at a time with nothing inside. -/
def commandOk (d : Lock → ℕ) (o : LockOp Lock) : Prop :=
  0 < d .schedule ∧ 0 < d .session ∧
    match o with
    | .lock _ => d .registry = 0
    | .unlock .registry => 0 < d .registry
    | .unlock l => 1 < d l ∧ d .registry = 0

/-- The caller of a command holds the schedule and the session. -/
def World.Busy {μ : Type} (w : World μ) : Prop := 0 < w.depth .schedule ∧ 0 < w.depth .session

/-- The channel is registered. -/
def World.HasChannel {μ : Type} (w : World μ) (id : ChannelId) : Prop :=
  (w.channels.lookup id).isSome

/-- The code left the locks as it found them and kept to the discipline of commands. -/
structure Orderly {μ α : Type} (w : World μ) (r : Outcome (World μ) (LockOp Lock) α) : Prop where
  depth : r.state.depth = w.depth
  walk : w.depth .registry = 0 → Walk commandOk w.depth r.ops w.depth

/-- Moreover, no channel was removed. -/
structure Tidy {μ α : Type} (w : World μ) (r : Outcome (World μ) (LockOp Lock) α) : Prop
    extends Orderly w r where
  kept : ∀ id, w.HasChannel id → r.state.HasChannel id

/-- Called with both locks held and the channel `id` registered, the code is tidy. -/
def TidyOn {μ α : Type} (id : ChannelId) (p : M μ α) : Prop :=
  ∀ w : World μ, w.Busy → w.HasChannel id → Tidy w (p.run w)

/-- The functions of the commands, on their memory `μ`. -/
structure Commands (μ : Type) where
  /-- `create`: the error and the `command_ref` it stored.  Of its configuration a command reads the
  version only. -/
  create : Command → Request → ℕ → M μ (ErrorCode × Option ℕ)
  /-- `terminate` -/
  terminate : Command → Option ℕ → M μ ErrorCode
  /-- The channel that a command remembers. -/
  channelOf : μ → Command → ℕ → Option ChannelId
  create_tidy : ∀ command request version, TidyOn request.channelId (create command request version)
  terminate_orderly : ∀ command ref w, w.Busy →
    (∀ r, ref = some r → ∃ id, channelOf w.memory command r = some id ∧ w.HasChannel id) →
    Orderly w ((terminate command ref).run w)

/-- A command runs on the channel: it was created, and the end of the channel is not requested. -/
def World.Runs {μ : Type} (w : World μ) (id : ChannelId) (command : Command) (ref : ℕ) : Prop :=
  ∃ channel, w.channels.lookup id = some channel ∧ channel.destructionRequested = false ∧
    channel.command = some command ∧ channel.commandRef = some ref

/-- A session whose running commands remember the channels they run on.  So it is in every state of
a session: `sessionWorld_of_reachable` in `Server/Tracking`. -/
structure SessionWorld {μ : Type} (cmds : Commands μ) where
  world : World μ
  remembers : ∀ id command ref, world.Runs id command ref →
    cmds.channelOf world.memory command ref = some id

/-! ### The code -/

/-- The command registered under a name. -/
def Command.ofName (name : List UInt8) : Option Command :=
  [("CMHD", .cmhd), ("CMRG", .cmrg), ("CMTR", .cmtr), ("DRCI", .drci), ("DRLS", .drls),
    ("DRQV", .drqv), ("DRMU", .drmu), ("SRFS", .srfs), ("SRID", .srid), ("SRLC", .srlc)].findSome?
    fun entry => if cString name = bytes entry.1 then some entry.2 else none

/-- What `printf` writes for a signed number. -/
def decimalInt (n : ℤ) : List UInt8 := (if n < 0 then [45] else []) ++ decimal n.natAbs

namespace Server

open Session

variable {μ : Type}

/-- `close_network_connection` -/
def closeNetworkConnection : M μ Unit := Logged.update fun w => { w with closing := true }

/-- `send_or_close` -/
def sendOrClose (line : List UInt8) : M μ Unit := do
  if ← Session.allocate then
    let err ← Session.sendToNetwork line
    if err ≠ .none then closeNetworkConnection
    else pure ()
  else closeNetworkConnection

/-- A line of the server with the time since the start of the session in it. -/
def sendTimestamped (line : ℤ → List UInt8) : M μ Unit := do
  let timestamp ← millisSinceReference
  sendOrClose (line timestamp)

/-- The channel error that is sent when no channel could be set up. -/
def sendChannelError (id : ChannelId) (text : String) : M μ Unit :=
  sendTimestamped fun timestamp =>
    bytes "-ERR " ++ channelIdToString id ++ [32] ++ decimalInt timestamp ++ bytes text

/-- The error outside of any channel for a request to terminate a channel that is not open. -/
def sendTerminationIgnored (id : ChannelId) : M μ Unit :=
  sendTimestamped fun timestamp =>
    bytes "*ERR " ++ decimalInt timestamp ++
      bytes " termination request ignored, channel does not exist: " ++ channelIdToString id ++ [10]

/-- `put_channel` on the table of the session, for an identifier in the range of the table. -/
def putChannel (channel : Channel) : M μ Bool := do
  let alloc ← Session.allocate
  match ← Logged.read fun w => XprcServer.putChannel alloc (some w.channels) (some channel) with
  | some (stored, some table) => do
    Logged.update fun w => { w with channels := table }
    pure stored
  | _ => pure false

/-- `pop_channel` on the table of the session, for an identifier in the range of the table. -/
def popChannel (id : ChannelId) : M μ Bool := do
  match ← Logged.read fun w => XprcServer.popChannel (some w.channels) id with
  | some (channel, some table) => do
    Logged.update fun w => { w with channels := table }
    pure channel.isSome
  | _ => pure false

/-- `get_command_configuration` -/
def getCommandConfiguration (command : Command) : M μ (Option CommandConfig) :=
  locked .session (fun _ => none) (Logged.read fun w => w.configs command)

/-- `create_command` on the channel registered for the request. -/
def createCommand (cmds : Commands μ) (request : Request) : M μ ErrorCode := do
  match Command.ofName request.commandName with
  | none => pure .unspecific
  | some command => do
    modifyChannel request.channelId fun channel => { channel with command := some command }
    match ← getCommandConfiguration command with
    | none => pure .unspecific
    | some config => do
      let (err, ref) ← cmds.create command request config.version
      modifyChannel request.channelId fun channel => { channel with commandRef := ref }
      pure err

/-- The end of `handle_command_request`, common to a failed and to a completed command: the channel
is removed if the client could be told. -/
def dropChannel (id : ChannelId) (err : ErrorCode) : M μ Unit := do
  if err ≠ .none ∧ err ≠ .sessionInvalidChannelState then closeNetworkConnection
  else if ← popChannel id then pure ()
  else closeNetworkConnection

/-- `handle_command_request` -/
def handleCommandRequest (cmds : Commands μ) (request : Request) : M μ Unit := do
  match ← Session.getChannel request.channelId with
  | some _ => sendChannelError request.channelId " channel busy\n"
  | none =>
    if ← Session.allocate then
      if ← putChannel ⟨request.channelId, .initial, false, none, none⟩ then do
        let err ← createCommand cmds request
        if err ≠ .none then do
          let err ← errorChannel request.channelId currentTimeReference
            (some (bytes "command creation failed"))
          dropChannel request.channelId err
        else
          match ← Session.getChannel request.channelId with
          | none => pure ()
          | some channel =>
            if channel.commandRef = none then do
              let err ← finishChannel request.channelId currentTimeReference none
              dropChannel request.channelId err
            else pure ()
      else sendChannelError request.channelId " channel registration failed\n"
    else sendChannelError request.channelId " channel creation failed\n"

/-- `handle_termination_request`.  A channel that outlived the request that created it has a
command. -/
def handleTerminationRequest (cmds : Commands μ) (request : Request) : M μ Unit := do
  match ← Session.getChannel request.channelId with
  | none => sendTerminationIgnored request.channelId
  | some channel =>
    if channel.state = .closed ∨ channel.destructionRequested then
      sendTerminationIgnored request.channelId
    else
      match channel.command with
      | none => pure ()
      | some command => do
        let err ← cmds.terminate command channel.commandRef
        if err ≠ .none then closeNetworkConnection
        else pure ()

/-- What `handle_request` does under both locks. -/
def handleLocked (cmds : Commands μ) (request : Request) : M μ Unit :=
  if cString request.commandName = bytes "TERM" then handleTerminationRequest cmds request
  else handleCommandRequest cmds request

/-- `handle_request` -/
def handleRequest (cmds : Commands μ) (request : Request) : M μ Unit := do
  let err ← lockSchedule
  if err ≠ .none then closeNetworkConnection
  else if ← lockSession then do
    handleLocked cmds request
    unlockSession
    unlockSchedule
  else closeNetworkConnection -- the schedule stays locked

end Server

/-! ### Code that keeps to the discipline -/

/-- Between `w` and `w'` no lock was taken or released, and no channel removed. -/
structure World.Calm {μ : Type} (w w' : World μ) : Prop where
  depth : w'.depth = w.depth
  kept : ∀ id, w.HasChannel id → w'.HasChannel id

instance {μ : Type} : Std.Refl (@World.Calm μ) := ⟨fun _ => ⟨rfl, fun _ h => h⟩⟩

instance {μ : Type} : IsTrans (World μ) World.Calm :=
  ⟨fun _ _ _ h h' => ⟨h'.depth.trans h.depth, fun id hid => h'.kept id (h.kept id hid)⟩⟩

theorem World.Frame.calm {μ : Type} {w w' : World μ} (h : w.Frame w') : w.Calm w' :=
  ⟨h.depth, fun id hid => by rw [HasChannel, h.present]; exact hid⟩

variable {μ α β : Type} {w : World μ}

theorem Orderly.pure (a : α) (w : World μ) : Orderly w ((pure a : M μ α).run w) :=
  ⟨rfl, fun _ => .nil _⟩

theorem Orderly.bind {p : M μ α} {f : α → M μ β} (hp : Orderly w (p.run w))
    (hf : Orderly (p.run w).state ((f (p.run w).val).run (p.run w).state)) :
    Orderly w ((p >>= f).run w) where
  depth := hf.depth.trans hp.depth
  walk hr := by
    have hrest := hf.walk (by rw [hp.depth]; exact hr)
    rw [hp.depth] at hrest
    exact (hp.walk hr).append hrest

/-- The caller of later code holds the same locks. -/
theorem Orderly.busy {r : Outcome (World μ) (LockOp Lock) α} (h : Orderly w r) (hw : w.Busy) :
    r.state.Busy := by
  unfold World.Busy
  rw [h.depth]
  exact hw

namespace Tidy

theorem bind {p : M μ α} {f : α → M μ β} (hp : Tidy w (p.run w))
    (hf : Tidy (p.run w).state ((f (p.run w).val).run (p.run w).state)) :
    Tidy w ((p >>= f).run w) :=
  ⟨hp.toOrderly.bind hf.toOrderly, fun id hid => hf.kept id (hp.kept id hid)⟩

/-- Code that does not touch the locks. -/
theorem of_keeps {p : M μ α} (hp : Logged.Keeps World.Calm p) (w : World μ) : Tidy w (p.run w) where
  depth := (hp w).2.depth
  walk _ := by rw [(hp w).1]; exact .nil _
  kept := (hp w).2.kept

theorem pure (a : α) (w : World μ) : Tidy w ((pure a : M μ α).run w) := of_keeps (.pure a) w

/-- Code that takes the session in pairs, called by one who holds it. -/
theorem of_balanced {r : Outcome (World μ) (LockOp Lock) α} (hw : w.Busy)
    (h : Session.Balanced w r) : Tidy w r where
  depth := h.frame.depth
  walk hr := by
    obtain ⟨hschedule, hsession⟩ := hw
    refine h.nested.walk (fun n hn => ?_) fun n hn => ?_
    · refine ⟨by simpa using hschedule, ?_, by simpa using hr⟩
      rw [Function.update_self]
      omega
    · refine ⟨by simpa using hschedule, ?_, ?_, by simpa using hr⟩
      · rw [Function.update_self]; omega
      · rw [Function.update_self]; omega
  kept := h.frame.calm.kept

/-- Taking and releasing a lock at once keeps to the discipline. -/
theorem walk_pair (hw : w.Busy) (hr : w.depth .registry = 0) (l : Lock) :
    Walk commandOk w.depth [.lock l, .unlock l] w.depth := by
  obtain ⟨hschedule, hsession⟩ := hw
  have hback : w.depth = (LockOp.unlock l).apply ((LockOp.lock l).apply w.depth) :=
    (congrArg World.depth (World.apply_unlock_apply_lock w l)).symm
  refine .cons ⟨hschedule, hsession, hr⟩ (.cons ?_ ?_)
  · cases l with
    | schedule =>
      exact ⟨by simp [LockOp.apply], by simpa [LockOp.apply], by simp [LockOp.apply, hschedule, hr]⟩
    | session =>
      exact ⟨by simpa [LockOp.apply], by simp [LockOp.apply], by simp [LockOp.apply, hsession, hr]⟩
    | registry => exact ⟨by simpa [LockOp.apply], by simpa [LockOp.apply], by simp [LockOp.apply]⟩
  · rw [← hback]
    exact .nil _

/-- Code that runs while it holds the lock `l`, called by one who holds the schedule and the
session. -/
theorem locked {l : Lock} {refused : ErrorCode → α} {body : M μ α} (hw : w.Busy)
    (hbody : Logged.Keeps World.Calm body) :
    Tidy w ((locked l refused body).run w) := by
  by_cases h : w.refuses l
  · obtain ⟨n, -, hstate, hops⟩ := locked_refused refused body h
    refine ⟨⟨by rw [hstate]; rfl, fun hr => ?_⟩, fun id hid => by rw [hstate]; exact hid⟩
    rcases hops with hops | hops
    · rw [hops]; exact .nil _
    · rw [hops]; exact walk_pair hw hr l
  · obtain ⟨hops, hcalm⟩ := hbody (w.holding l)
    rw [locked_granted h, hops]
    refine ⟨⟨?_, fun hr => walk_pair hw hr l⟩, fun id hid => hcalm.kept id hid⟩
    rw [World.apply_depth, hcalm.depth]
    exact congrArg World.depth (World.apply_unlock_apply_lock w l)

end Tidy

namespace TidyOn

variable {id : ChannelId}

theorem pure (a : α) : TidyOn id (Pure.pure a : M μ α) := fun w _ _ => .pure a w

theorem bind {p : M μ α} {f : α → M μ β} (hp : TidyOn id p) (hf : ∀ a, TidyOn id (f a)) :
    TidyOn id (p >>= f) := by
  intro w hw hid
  have h := hp w hw hid
  exact h.bind (hf _ _ (h.busy hw) (h.kept id hid))

theorem ite {c : Prop} [Decidable c] {p q : M μ α} (hp : TidyOn id p) (hq : TidyOn id q) :
    TidyOn id (if c then p else q) := by
  split_ifs
  · exact hp
  · exact hq

theorem of_keeps {p : M μ α} (hp : Logged.Keeps World.Calm p) : TidyOn id p :=
  fun w _ _ => .of_keeps hp w

theorem of_frame {p : M μ α} (hp : Logged.Keeps World.Frame p) : TidyOn id p :=
  of_keeps (hp.mono fun _ _ => World.Frame.calm)

theorem locked {l : Lock} {refused : ErrorCode → α} {body : M μ α}
    (hbody : Logged.Keeps World.Calm body) : TidyOn id (XprcServer.locked l refused body) :=
  fun _ hw _ => .locked hw hbody

theorem message (call : ChannelCall) (timestamp : ℤ) (message : Option (List UInt8)) :
    TidyOn id (call.exec id timestamp message : M μ ErrorCode) :=
  fun _ hw hid => .of_balanced hw (call.exec_balanced (.inr hid))

end TidyOn

/-! ### The locks of a request -/

namespace Server

open Session
open Logged (Keeps)

theorem closeNetworkConnection_keeps : Keeps World.Frame (closeNetworkConnection : M μ Unit) :=
  .update fun _ => ⟨rfl, Nat.le_refl _, rfl, rfl, rfl, rfl, fun _ => rfl⟩

theorem sendOrClose_keeps (line : List UInt8) : Keeps World.Frame
    (sendOrClose line : M μ Unit) := by
  refine (ask_keeps _).bind fun success => .ite ?_ closeNetworkConnection_keeps
  exact (sendToNetwork_keeps line).bind fun err => .ite closeNetworkConnection_keeps (.pure _)

theorem sendTimestamped_tidy (line : ℤ → List UInt8) (w : World μ) :
    Tidy w ((sendTimestamped line).run w) := by
  have hkeeps : Keeps World.Frame (sendTimestamped line : M μ Unit) :=
    (millisSinceReference_ticks.mono fun _ _ => .ofTicks).bind fun _ => sendOrClose_keeps _
  exact .of_keeps (hkeeps.mono fun _ _ => World.Frame.calm) w

theorem closeNetworkConnection_tidy (w : World μ) : Tidy w (closeNetworkConnection.run w) :=
  .of_keeps (closeNetworkConnection_keeps.mono fun _ _ => World.Frame.calm) w

/-- What `put_channel` does to the session. -/
theorem putChannel_spec (channel : Channel) (w : World μ) :
    ∃ stored table', (putChannel channel).run w =
        ⟨stored, { w.atTick (w.tick + 1) with channels := table' }, []⟩ ∧
      PutResult w.channels channel stored table' := by
  simp only [putChannel, Session.allocate, Logged.run_bind, run_ask, Logged.run_read,
    World.atTick_channels, Outcome.after_nil]
  cases hput : XprcServer.putChannel (w.env.alloc w.tick) (some w.channels) (some channel) with
  | none => exact ⟨false, w.channels, rfl, .inr ⟨rfl, fun _ => rfl⟩⟩
  | some r =>
    obtain ⟨stored, table'⟩ := r
    cases table' with
    | none => exact ⟨false, w.channels, rfl, .inr ⟨rfl, fun _ => rfl⟩⟩
    | some table' =>
      refine ⟨stored, table', rfl, ?_⟩
      by_cases hr : InRange channel.id
      · exact putChannel_result hr hput
      · exact putChannel_result_of_not_inRange hr hput

theorem putChannel_run (channel : Channel) (w : World μ) :
    Tidy w ((putChannel channel).run w) ∧
      (((putChannel channel).run w).val = true →
        ((putChannel channel).run w).state.HasChannel channel.id) := by
  obtain ⟨stored, table', hrun, hresult⟩ := putChannel_spec channel w
  rw [hrun]
  refine ⟨⟨⟨rfl, fun _ => .nil _⟩, fun id hid => ?_⟩, fun hstored => ?_⟩
  · change (table'.lookup id).isSome
    rcases hresult with ⟨-, hch, hkept⟩ | ⟨-, hkept⟩
    · by_cases hne : id = channel.id
      · rw [hne, hch]; rfl
      · rw [hkept id hne]; exact hid
    · rw [hkept id]; exact hid
  · change (table'.lookup channel.id).isSome
    rcases hresult with ⟨-, hch, -⟩ | ⟨hno, -⟩
    · rw [hch]; rfl
    · rw [show stored = true from hstored] at hno; cases hno

/-- What `pop_channel` does to the session: the channel is gone, and all others are kept. -/
theorem popChannel_spec (id : ChannelId) (w : World μ) :
    ∃ table', (popChannel id).run w =
        ⟨(w.channels.lookup id).isSome, { w with channels := table' }, []⟩ ∧
      table'.lookup id = none ∧ ∀ id', id' ≠ id → table'.lookup id' = w.channels.lookup id' := by
  simp only [popChannel, Logged.run_bind, Logged.run_read, Outcome.after_nil]
  by_cases hr : InRange id
  · obtain ⟨table', hpop⟩ : ∃ table', XprcServer.popChannel (some w.channels) id =
        some (w.channels.lookup id, some table') := popChannel_eq_lookup hr
    rw [hpop]
    exact ⟨table', rfl, popChannel_result hpop⟩
  · have hnone : w.channels.lookup id = none := by simp [ChannelsTable.lookup, hr]
    rw [hnone]
    rcases popChannel_of_not_inRange hr with hpop | hpop
    · rw [hpop]
      exact ⟨w.channels, rfl, hnone, fun _ _ => rfl⟩
    · rw [hpop]
      exact ⟨w.channels, rfl, hnone, fun _ _ => rfl⟩

theorem popChannel_orderly (id : ChannelId) (w : World μ) : Orderly w ((popChannel id).run w) := by
  obtain ⟨table', hrun, -⟩ := popChannel_spec id w
  rw [hrun]
  exact ⟨rfl, fun _ => .nil _⟩

theorem createCommand_tidy (cmds : Commands μ) (request : Request) :
    TidyOn request.channelId (createCommand cmds request) := by
  unfold createCommand
  cases Command.ofName request.commandName with
  | none => exact .pure _
  | some command =>
    refine .bind (.of_frame (modifyChannel_keeps _ _)) fun _ =>
      .bind (.locked (.read _)) fun config => ?_
    cases config with
    | none => exact .pure _
    | some config =>
      refine .bind (cmds.create_tidy command request config.version) fun _ => ?_
      exact .bind (.of_frame (modifyChannel_keeps _ _)) fun _ => .pure _

theorem dropChannel_orderly (id : ChannelId) (err : ErrorCode) (w : World μ) :
    Orderly w ((dropChannel id err).run w) := by
  unfold dropChannel
  rw [Logged.run_ite]
  split_ifs
  · exact (closeNetworkConnection_tidy w).toOrderly
  · refine (popChannel_orderly id w).bind ?_
    rw [Logged.run_ite]
    split_ifs
    · exact .pure _ _
    · exact (closeNetworkConnection_tidy _).toOrderly

theorem handleCommandRequest_orderly (cmds : Commands μ) (request : Request) (hw : w.Busy) :
    Orderly w ((handleCommandRequest cmds request).run w) := by
  have hask : ∀ w : World μ, Tidy w (Session.allocate.run w) := fun w =>
    .of_keeps ((ask_keeps _).mono fun _ _ => World.Frame.calm) w
  unfold handleCommandRequest
  rw [Logged.run_bind, Session.run_getChannel, Outcome.after_nil]
  cases w.channels.lookup request.channelId with
  | some channel => exact (sendTimestamped_tidy _ w).toOrderly
  | none =>
    refine (hask w).toOrderly.bind ?_
    have hw₁ := (hask w).busy hw
    set w₁ := (Session.allocate.run w).state
    rw [Logged.run_ite]
    split_ifs
    swap
    · exact (sendTimestamped_tidy _ _).toOrderly
    obtain ⟨hput, hstored⟩ :=
      putChannel_run ⟨request.channelId, .initial, false, none, none⟩ w₁
    refine hput.toOrderly.bind ?_
    rw [Logged.run_ite]
    split_ifs with hsuccess
    swap
    · exact (sendTimestamped_tidy _ _).toOrderly
    -- the channel that was just put is there for the command and for the messages after it
    have hcreate := createCommand_tidy cmds request _ (hput.busy hw₁) (hstored hsuccess)
    have hw₂ := hcreate.busy (hput.busy hw₁)
    have hid := hcreate.kept _ (hstored hsuccess)
    refine hcreate.toOrderly.bind ?_
    rw [Logged.run_ite]
    split_ifs
    · exact (TidyOn.message .error _ _ _ hw₂ hid).toOrderly.bind (dropChannel_orderly _ _ _)
    · rw [Logged.run_bind, Session.run_getChannel, Outcome.after_nil]
      cases (((createCommand cmds request).run _).state.channels.lookup request.channelId) with
      | none => exact .pure _ _
      | some channel =>
        dsimp only
        rw [Logged.run_ite]
        split_ifs
        · exact (TidyOn.message .finish _ _ _ hw₂ hid).toOrderly.bind (dropChannel_orderly _ _ _)
        · exact .pure _ _

theorem handleTerminationRequest_orderly (cmds : Commands μ) (s : SessionWorld cmds)
    (request : Request) (hw : s.world.Busy) :
    Orderly s.world ((handleTerminationRequest cmds request).run s.world) := by
  unfold handleTerminationRequest
  rw [Logged.run_bind, Session.run_getChannel, Outcome.after_nil]
  cases hid : s.world.channels.lookup request.channelId with
  | none => exact (sendTimestamped_tidy _ _).toOrderly
  | some channel =>
    dsimp only
    rw [Logged.run_ite]
    split_ifs with hclosed
    · exact (sendTimestamped_tidy _ _).toOrderly
    · cases hcommand : channel.command with
      | none => exact .pure _ _
      | some command =>
        rw [not_or] at hclosed
        have hterm := cmds.terminate_orderly command channel.commandRef s.world hw (by
          intro r hr
          -- the command sends its last message on this very channel
          have hrem := s.remembers _ _ _ ⟨channel, hid, by simpa using hclosed.2, hcommand, hr⟩
          exact ⟨request.channelId, hrem, by rw [World.HasChannel, hid]; rfl⟩)
        refine hterm.bind ?_
        rw [Logged.run_ite]
        split_ifs
        · exact (closeNetworkConnection_tidy _).toOrderly
        · exact .pure _ _

/-- The state in which a request is handled, with both locks held. -/
def requestWorld (w : World μ) : World μ := (w.holding .schedule).holding .session

theorem handleLocked_orderly (cmds : Commands μ) (s : SessionWorld cmds) (request : Request) :
    Orderly (requestWorld s.world) ((handleLocked cmds request).run (requestWorld s.world)) := by
  have hbusy : (requestWorld s.world).Busy := by
    constructor <;> simp [requestWorld, LockOp.apply]
  unfold handleLocked
  rw [Logged.run_ite]
  split_ifs
  · exact handleTerminationRequest_orderly cmds ⟨requestWorld s.world, s.remembers⟩ request hbusy
  · exact handleCommandRequest_orderly cmds request hbusy

variable (cmds : Commands μ) (request : Request)

theorem handleRequest_schedule_refused (h : w.refuses .schedule) :
    ((handleRequest cmds request).run w).state.depth = w.depth ∧
      (((handleRequest cmds request).run w).ops = [] ∨
        ((handleRequest cmds request).run w).ops = [.lock .schedule, .unlock .schedule]) := by
  obtain ⟨n, -, hval, hstate, hops, -⟩ := lockFlagged_refused h
  simp only [handleRequest, lockSchedule, Logged.run_bind, hval, ne_eq,
    not_false_eq_true, ↓reduceIte, hstate, closeNetworkConnection, Logged.run_update,
    Outcome.after_state, Outcome.after_ops, List.append_nil]
  exact ⟨rfl, hops⟩

theorem handleRequest_session_refused (h : ¬ w.refuses .schedule)
    (h' : (w.holding .schedule).refuses .session) :
    ((handleRequest cmds request).run w).state.depth = (LockOp.lock .schedule).apply w.depth ∧
      ∃ os, Nested .session os ∧
        ((handleRequest cmds request).run w).ops = .lock .schedule :: os := by
  obtain ⟨n, -, hval, hstate, hops, -⟩ := lockSession_refused h'
  have hlock : lockSchedule.run w = ⟨.none, w.holding .schedule, [.lock .schedule]⟩ :=
    lockFlagged_granted h
  simp only [handleRequest, Logged.run_bind, hlock, ne_eq, not_true_eq_false, ↓reduceIte, hval,
    Bool.false_eq_true, hstate, closeNetworkConnection, Logged.run_update, Outcome.after_state,
    Outcome.after_ops, List.append_nil]
  exact ⟨rfl, _, hops, rfl⟩

theorem handleRequest_granted (h : ¬ w.refuses .schedule)
    (h' : ¬ (w.holding .schedule).refuses .session) :
    ((handleRequest cmds request).run w).state =
        (((handleLocked cmds request).run (requestWorld w)).state.apply (.unlock .session)).apply
          (.unlock .schedule) ∧
      ((handleRequest cmds request).run w).ops =
        [.lock .schedule, .lock .session] ++
          ((handleLocked cmds request).run (requestWorld w)).ops ++
          [.unlock .session, .unlock .schedule] := by
  have hlock : lockSchedule.run w = ⟨.none, w.holding .schedule, [.lock .schedule]⟩ :=
    lockFlagged_granted h
  simp [handleRequest, hlock, lockSession_granted h', unlockSession, unlockSchedule, requestWorld]

theorem handleRequest_granted_depth (s : SessionWorld cmds) (h : ¬ s.world.refuses .schedule)
    (h' : ¬ (s.world.holding .schedule).refuses .session) :
    ((handleRequest cmds request).run s.world).state.depth = s.world.depth := by
  have hback : ∀ l (d : Lock → ℕ), (LockOp.unlock l).apply ((LockOp.lock l).apply d) = d :=
    fun l d => by simp [LockOp.apply]
  rw [(handleRequest_granted cmds request h h').1, World.apply_depth, World.apply_depth,
    (handleLocked_orderly cmds s request).depth, requestWorld, World.holding_depth, hback,
    World.holding_depth, hback]

end Server

/-- **The locks left behind by a request.**  `handle_request` returns with the schedule and the
session locked as often as before the call iff the schedule could not be locked, or the session
could be locked after it.  Every state of a session is a `SessionWorld`
(`sessionWorld_of_reachable`). -/
theorem handleRequest_depth_iff {μ : Type} (cmds : Commands μ) (s : SessionWorld cmds)
    (request : Request) :
    let w := s.world
    let w' := ((Server.handleRequest cmds request).run w).state
    (w'.depth .schedule = w.depth .schedule ∧ w'.depth .session = w.depth .session) ↔
      w.refuses .schedule ∨ ¬ (w.holding .schedule).refuses .session := by
  intro w w'
  by_cases h : w.refuses .schedule
  · have hdepth : w'.depth = w.depth := (Server.handleRequest_schedule_refused cmds request h).1
    simp [hdepth, h]
  · by_cases h' : (w.holding .schedule).refuses .session
    · have hdepth : w'.depth = (LockOp.lock .schedule).apply w.depth :=
        (Server.handleRequest_session_refused cmds request h h').1
      simp [hdepth, h, h', LockOp.apply]
    · have hdepth : w'.depth = w.depth := Server.handleRequest_granted_depth cmds request s h h'
      simp [hdepth, h']

/-- Commands that cannot be created. -/
def Commands.inert (μ : Type) : Commands μ where
  create _ _ _ := pure (.unspecific, none)
  terminate _ _ := pure .none
  channelOf _ _ _ := none
  create_tidy _ _ _ w _ _ := Tidy.pure _ w
  terminate_orderly _ _ w _ _ := .pure _ w

/-- The session is flagged for destruction after the schedule was locked: the request leaves the
schedule locked. -/
theorem handleRequest_leaves_schedule_locked :
    let env : Environment :=
      { Environment.calm with pendingFrom := fun l => if l = .session then some 3 else none }
    let w : World Unit := { World.idle () with env := env }
    let w' := ((Server.handleRequest (.inert Unit) ⟨0, bytes "SRID", [], []⟩).run w).state
    w.depth .schedule = 0 ∧ w'.depth .schedule = 1 ∧ w'.depth .session = 0 := by
  decide

end XprcServer
