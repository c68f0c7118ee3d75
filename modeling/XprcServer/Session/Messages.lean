import XprcServer.Session.World

/-!
# Messages on channels

`session.c`: `send_channel` puts one line on the wire and advances the state of the channel;
`confirm_channel`, `continue_channel`, `finish_channel` and `error_channel` look the channel up
under the lock of the session and send through it.

All four return without unlocking when the channel does not exist.  `channelCall_depth_iff` says
that this is the only way in which a call leaves the session mutex at another depth.
-/

namespace XprcServer

open Lib

/-- `channel_action_t` -/
inductive ChannelAction where
  | err
  | ackContinue
  | ackClose
  | continues
  | close
  deriving DecidableEq, Repr

/-- The channel stays open after the message. -/
def ChannelAction.channelContinues (action : ChannelAction) : Bool :=
  action = .continues || action = .ackContinue

/-- `CURRENT_TIME_REFERENCE` -/
def currentTimeReference : ℤ := -1

/-- The timestamp as `send_channel` writes it: as many characters as `num_digits` counts for the
timestamp converted to `int`, the rest of a shorter text being zeroed memory. -/
def timestampText (timestamp : ℤ) : List UInt8 :=
  let length := numDigits (toInt32 timestamp)
  let text := (decimal timestamp.toNat).take length
  text ++ List.replicate (length - text.length) 0

/-- The message prefix that says how the command of the channel is doing is left out only of
non-empty messages that are not errors and not the first ones. -/
def needsStatePrefix (channel : Channel) (action : ChannelAction) (message : List UInt8) : Bool :=
  message.length = 0 || channel.state = .initial || action = .err

/-- The line that `send_channel` composes. -/
def channelLine (channel : Channel) (action : ChannelAction) (timestamp : ℤ)
    (message : Option (List UInt8)) : List UInt8 :=
  let message := (message.map cString).getD []
  let continuationIndicator : UInt8 := if action.channelContinues then 43 else 45 -- '+', '-'
  let statePrefix := bytes (if action = .err then "ERR " else "ACK ")
  [continuationIndicator] ++
    (if needsStatePrefix channel action message then statePrefix else []) ++
    channelIdToString channel.id ++ [32] ++ timestampText timestamp ++
    (if 0 < message.length then 32 :: message else []) ++ [10]

/-- A message of this kind is not allowed in the state of the channel: nothing is sent on a closed
channel, a confirmed one is not acknowledged again, and a new one not continued. -/
def ChannelAction.forbidden (action : ChannelAction) (state : ChannelState) : Bool :=
  match state with
  | .closed => true
  | .confirmed => action = .ackContinue || action = .ackClose
  | .initial => action = .continues

/-- The state `send_channel` leaves a channel in, whether or not the line could be sent. -/
def ChannelAction.nextState (action : ChannelAction) : ChannelState :=
  if action.channelContinues then .confirmed else .closed

namespace Session

variable {μ : Type}

/-- `get_channel` on the table of the session, for an identifier in the range of the table.  What is
behind the table is not modelled: an access there is to be excluded where it matters. -/
def getChannel (id : ChannelId) : M μ (Option Channel) :=
  Logged.read fun w => (XprcServer.getChannel (some w.channels) id).join

/-- A channel of the session is changed through a pointer. -/
def modifyChannel (id : ChannelId) (f : Channel → Channel) : M μ Unit :=
  Logged.update fun w => { w with channels := w.channels.modify id f }

/-- `zmalloc` did not return NULL. -/
def allocate : M μ Bool := ask fun env tick => env.alloc tick

/-- `send_to_network` on the connection of the session. -/
def sendToNetwork (line : List UInt8) : M μ ErrorCode := do
  let err ← ask fun env tick => env.send tick
  Logged.update fun w => if err = .none then { w with wire := w.wire ++ [line] } else w
  pure err

/-- `millis_since_reference` -/
def millisSinceReference : M μ ℤ := do
  if ← destructionPending .session then pure (-1)
  else do
    let reference ← Logged.read World.referenceMillis
    if reference < 0 then pure (-1)
    else do
      match ← ask fun env tick => env.clock tick with
      | none => pure (-1)
      | some now =>
        if millisOfTimespec now < 0 then pure (-1)
        else if millisOfTimespec now < reference then pure (-1)
        else pure (millisOfTimespec now - reference)

/-- The timestamp of a message, looked up if the caller asks for it. -/
def resolveTimestamp (timestamp : ℤ) : M μ ℤ :=
  if timestamp = currentTimeReference then millisSinceReference else pure timestamp

/-- `send_channel` on the channel `channel` that was found under `id`. -/
def sendChannel (id : ChannelId) (channel : Channel) (action : ChannelAction) (timestamp : ℤ)
    (message : Option (List UInt8)) : M μ ErrorCode := do
  let timestamp ← resolveTimestamp timestamp
  if timestamp < 0 then pure .unspecific
  else if action.forbidden channel.state then pure .sessionInvalidChannelState
  else if ← allocate then do
    let err ← sendToNetwork (channelLine channel action timestamp message)
    modifyChannel id fun channel => { channel with state := action.nextState }
    pure err
  else pure .memoryAllocation

/-- The common frame of the four message functions: the body works on the channel while the session
is locked.  If there is no such channel the session stays locked. -/
def onChannel (id : ChannelId) (body : Channel → M μ ErrorCode) : M μ ErrorCode := do
  if ← lockSession then
    match ← getChannel id with
    | none => pure .sessionNoSuchChannel
    | some channel => do
      let err ← body channel
      unlockSession
      pure err
  else pure .mutexFailed

/-- `error_channel` -/
def errorChannel (id : ChannelId) (timestamp : ℤ) (message : Option (List UInt8)) : M μ ErrorCode :=
  onChannel id fun channel => sendChannel id channel .err timestamp message

/-- The common code of the other messages: a failure to send is reported as an error on the
channel. -/
def messageChannel (action : Channel → ChannelAction) (failure : String) (id : ChannelId)
    (timestamp : ℤ) (message : Option (List UInt8)) : M μ ErrorCode :=
  onChannel id fun channel => do
    let err ← sendChannel id channel (action channel) timestamp message
    if err ≠ .none then do
      let _ ← errorChannel id timestamp (some (bytes failure))
      pure err
    else pure err

/-- `confirm_channel` -/
def confirmChannel : ChannelId → ℤ → Option (List UInt8) → M μ ErrorCode :=
  messageChannel (fun _ => .ackContinue) "failed to confirm channel"

/-- `continue_channel` -/
def continueChannel : ChannelId → ℤ → Option (List UInt8) → M μ ErrorCode :=
  messageChannel (fun _ => .continues) "failed to continue channel"

/-- `finish_channel` -/
def finishChannel : ChannelId → ℤ → Option (List UInt8) → M μ ErrorCode :=
  messageChannel (fun channel => if channel.state = .initial then .ackClose else .close)
    "failed to finish channel"

end Session

/-! ### What a message leaves alone -/

/-- Between `w` and `w'` the environment was asked at most. -/
def World.Ticks {μ : Type} (w w' : World μ) : Prop := ∃ n, w.tick ≤ n ∧ w' = w.atTick n

instance {μ : Type} : Std.Refl (@World.Ticks μ) := ⟨fun w => ⟨w.tick, Nat.le_refl _, rfl⟩⟩

instance {μ : Type} : IsTrans (World μ) World.Ticks where
  trans := by
    rintro w _ _ ⟨n, hn, rfl⟩ ⟨n', hn', rfl⟩
    exact ⟨n', Nat.le_trans hn hn', rfl⟩

/-- Between `w` and `w'` messages were sent at most: the locks are held as before, no channel
appeared or vanished, and the rest of the session did not change. -/
structure World.Frame {μ : Type} (w w' : World μ) : Prop where
  env : w'.env = w.env
  tick : w.tick ≤ w'.tick
  depth : w'.depth = w.depth
  reference : w'.referenceMillis = w.referenceMillis
  configs : w'.configs = w.configs
  memory : w'.memory = w.memory
  present : ∀ id, (w'.channels.lookup id).isSome = (w.channels.lookup id).isSome

namespace World.Frame

variable {μ : Type} {w w' w'' : World μ}

theorem refl (w : World μ) : w.Frame w := ⟨rfl, Nat.le_refl _, rfl, rfl, rfl, rfl, fun _ => rfl⟩

theorem trans (h : w.Frame w') (h' : w'.Frame w'') : w.Frame w'' where
  env := h'.env.trans h.env
  tick := Nat.le_trans h.tick h'.tick
  depth := h'.depth.trans h.depth
  reference := h'.reference.trans h.reference
  configs := h'.configs.trans h.configs
  memory := h'.memory.trans h.memory
  present id := (h'.present id).trans (h.present id)

instance : Std.Refl (@World.Frame μ) := ⟨refl⟩

instance : IsTrans (World μ) World.Frame := ⟨fun _ _ _ => trans⟩

theorem atTick {n : ℕ} (hn : w.tick ≤ n) : w.Frame (w.atTick n) :=
  ⟨rfl, hn, rfl, rfl, rfl, rfl, fun _ => rfl⟩

theorem ofTicks (h : w.Ticks w') : w.Frame w' := by
  obtain ⟨n, hn, rfl⟩ := h
  exact atTick hn

/-- What was framed while a lock was held is framed from before locking to after unlocking. -/
theorem bracket {l : Lock} {n : ℕ} (hn : w.tick ≤ n) (h : ((w.atTick n).apply (.lock l)).Frame w') :
    w.Frame (w'.apply (.unlock l)) where
  env := h.env
  tick := Nat.le_trans hn h.tick
  depth := by
    rw [apply_depth, h.depth]
    exact congrArg World.depth (World.apply_unlock_apply_lock (w.atTick n) l)
  reference := h.reference
  configs := h.configs
  memory := h.memory
  present := h.present

end World.Frame

namespace Session

open Logged (Keeps)

variable {μ : Type}

theorem ask_ticks {α : Type} (f : Environment → ℕ → α) : Keeps World.Ticks (ask f : M μ α) :=
  fun w => ⟨rfl, w.tick + 1, Nat.le_succ _, rfl⟩

theorem ask_keeps {α : Type} (f : Environment → ℕ → α) : Keeps World.Frame (ask f : M μ α) :=
  (ask_ticks f).mono fun _ _ => .ofTicks

theorem modifyChannel_keeps (id : ChannelId) (f : Channel → Channel) :
    Keeps World.Frame (modifyChannel id f : M μ Unit) :=
  .update fun _ => ⟨rfl, Nat.le_refl _, rfl, rfl, rfl, rfl, fun _ =>
    ChannelsTable.isSome_lookup_modify⟩

theorem sendToNetwork_keeps (line : List UInt8) :
    Keeps World.Frame (sendToNetwork line : M μ ErrorCode) := by
  refine (ask_keeps _).bind fun err => .bind (.update fun w => ?_) fun _ => .pure err
  split_ifs
  · exact ⟨rfl, Nat.le_refl _, rfl, rfl, rfl, rfl, fun _ => rfl⟩
  · exact .refl w

theorem millisSinceReference_ticks : Keeps World.Ticks (millisSinceReference : M μ ℤ) := by
  refine (ask_ticks _).bind fun pending => .ite (.pure _) (.bind (.read _) fun reference => ?_)
  refine .ite (.pure _) ((ask_ticks _).bind fun now => ?_)
  cases now with
  | none => exact .pure _
  | some now => exact .ite (.pure _) (.ite (.pure _) (.pure _))

theorem resolveTimestamp_ticks (timestamp : ℤ) :
    Keeps World.Ticks (resolveTimestamp timestamp : M μ ℤ) :=
  .ite millisSinceReference_ticks (.pure _)

theorem sendChannel_keeps (id : ChannelId) (channel : Channel) (action : ChannelAction)
    (timestamp : ℤ) (message : Option (List UInt8)) :
    Keeps World.Frame (sendChannel id channel action timestamp message : M μ ErrorCode) := by
  refine ((resolveTimestamp_ticks timestamp).mono fun _ _ => .ofTicks).bind fun timestamp =>
    .ite (.pure _) (.ite (.pure _) ?_)
  refine (ask_keeps _).bind fun success => .ite ?_ (.pure _)
  exact (sendToNetwork_keeps _).bind fun err => (modifyChannel_keeps id _).bind fun _ => .pure err

/-! ### The depth of the session mutex -/

variable {w : World μ} {id : ChannelId} {timestamp : ℤ} {message : Option (List UInt8)}

theorem lockSession_granted (h : ¬ w.refuses .session) :
    lockSession.run w =
      ⟨true, w.holding .session, [.lock .session]⟩ := by
  simp [lockSession, lockFlagged_granted h, World.holding]

theorem lockSession_refused (h : w.refuses .session) :
    ∃ n, w.tick ≤ n ∧ (lockSession.run w).val = false ∧ (lockSession.run w).state = w.atTick n ∧
      Nested .session (lockSession.run w).ops ∧
      (0 < w.depth .session → w.env.pendingAt .session n = true) := by
  obtain ⟨n, hn, hval, hstate, hops, hpending⟩ := lockFlagged_refused h
  refine ⟨n, hn, by simpa [lockSession] using hval, hstate, ?_, hpending⟩
  have hsame : (lockSession.run w).ops = ((lockFlagged .session).run w).ops := by simp [lockSession]
  rw [hsame]
  rcases hops with hops | hops
  · rw [hops]; exact .nil
  · rw [hops]; exact .single

@[simp] theorem run_getChannel (id : ChannelId) (w : World μ) :
    (getChannel id).run w = ⟨w.channels.lookup id, w, []⟩ := by
  simp [getChannel, getChannel_join]

section

variable {body : Channel → M μ ErrorCode} {channel : Channel}

theorem onChannel_refused (id : ChannelId) (body : Channel → M μ ErrorCode)
    (h : w.refuses .session) :
    ∃ n, w.tick ≤ n ∧ ((onChannel id body).run w).val = .mutexFailed ∧
      ((onChannel id body).run w).state = w.atTick n ∧
      Nested .session ((onChannel id body).run w).ops ∧
      (0 < w.depth .session → w.env.pendingAt .session n = true) := by
  obtain ⟨n, hn, hval, hstate, hops, hpending⟩ := lockSession_refused h
  refine ⟨n, hn, ?_⟩
  simpa [onChannel, hval, hstate, hops] using hpending

theorem onChannel_missing (h : ¬ w.refuses .session) (hid : w.channels.lookup id = none) :
    (onChannel id body).run w =
      ⟨.sessionNoSuchChannel, w.holding .session, [.lock .session]⟩ := by
  simp [onChannel, lockSession_granted h, hid]

theorem onChannel_found (h : ¬ w.refuses .session) (hid : w.channels.lookup id = some channel) :
    (onChannel id body).run w =
      ⟨((body channel).run (w.holding .session)).val,
        ((body channel).run (w.holding .session)).state.apply (.unlock .session),
        .lock .session :: (((body channel).run (w.holding .session)).ops ++
          [.unlock .session])⟩ := by
  simp [onChannel, lockSession_granted h, hid, unlockSession]

end

/-- The locks are held as before the call, having been taken in pairs, and messages were sent at
most. -/
structure Balanced {α : Type} (w : World μ) (r : Outcome (World μ) (LockOp Lock) α) : Prop where
  frame : w.Frame r.state
  nested : Nested .session r.ops

theorem Balanced.bind {α β : Type} {p : M μ α} {f : α → M μ β} (hp : Balanced w (p.run w))
    (hf : Balanced (p.run w).state ((f (p.run w).val).run (p.run w).state)) :
    Balanced w ((p >>= f).run w) :=
  ⟨hp.frame.trans hf.frame, hp.nested.append hf.nested⟩

theorem Balanced.pure {α : Type} (a : α) (w : World μ) : Balanced w ((pure a : M μ α).run w) :=
  ⟨.refl w, .nil⟩

theorem onChannel_balanced {body : Channel → M μ ErrorCode}
    (hbody : ∀ channel w', (w'.channels.lookup id).isSome → Balanced w' ((body channel).run w'))
    (h : w.refuses .session ∨ (w.channels.lookup id).isSome) :
    Balanced w ((onChannel id body).run w) := by
  by_cases hr : w.refuses .session
  · obtain ⟨n, hn, -, hstate, hops, -⟩ := onChannel_refused id body hr
    exact ⟨hstate ▸ .atTick hn, hops⟩
  · have hid := h.resolve_left hr
    obtain ⟨channel, hchannel⟩ := Option.isSome_iff_exists.1 hid
    have hin := hbody channel (w.holding .session) hid
    rw [onChannel_found hr hchannel]
    exact ⟨.bracket (by omega) hin.frame, .pair hin.nested .nil⟩

theorem sendChannel_balanced (channel : Channel) (action : ChannelAction) (w : World μ) :
    Balanced w ((sendChannel id channel action timestamp message).run w) := by
  obtain ⟨hops, hframe⟩ := sendChannel_keeps id channel action timestamp message w
  exact ⟨hframe, hops ▸ .nil⟩

theorem errorChannel_balanced (h : w.refuses .session ∨ (w.channels.lookup id).isSome) :
    Balanced w ((errorChannel id timestamp message).run w) :=
  onChannel_balanced (fun channel w' _ => sendChannel_balanced channel .err w') h

theorem messageChannel_balanced {action : Channel → ChannelAction} {failure : String}
    (h : w.refuses .session ∨ (w.channels.lookup id).isSome) :
    Balanced w ((messageChannel action failure id timestamp message).run w) := by
  refine onChannel_balanced (fun channel w' hid => ?_) h
  have hsend : Balanced w' ((sendChannel id channel (action channel) timestamp message).run w') :=
    sendChannel_balanced channel (action channel) w'
  refine hsend.bind ?_
  rw [Logged.run_ite]
  split_ifs
  · -- the nested error message finds the same channels
    refine Balanced.bind (errorChannel_balanced (.inr ?_)) (.pure _ _)
    rw [hsend.frame.present]
    exact hid
  · exact .pure _ _

end Session

/-- The four functions that send a message on a channel. -/
inductive ChannelCall where
  | confirm
  | continues
  | finish
  | error
  deriving DecidableEq, Repr

/-- The function that is called. -/
def ChannelCall.exec {μ : Type} : ChannelCall → ChannelId → ℤ → Option (List UInt8) → M μ ErrorCode
  | confirm => Session.confirmChannel
  | continues => Session.continueChannel
  | finish => Session.finishChannel
  | error => Session.errorChannel

namespace ChannelCall

open Session

variable {μ : Type} {w : World μ} {id : ChannelId} {timestamp : ℤ} {message : Option (List UInt8)}

theorem exec_balanced (call : ChannelCall)
    (h : w.refuses .session ∨ (w.channels.lookup id).isSome) :
    Balanced w ((call.exec id timestamp message).run w) := by
  cases call with
  | confirm => exact messageChannel_balanced h
  | continues => exact messageChannel_balanced h
  | finish => exact messageChannel_balanced h
  | error => exact errorChannel_balanced h

theorem exec_missing (call : ChannelCall) (h : ¬ w.refuses .session)
    (hid : w.channels.lookup id = none) :
    (call.exec id timestamp message).run w =
      ⟨.sessionNoSuchChannel, w.holding .session, [.lock .session]⟩ := by
  cases call <;> exact onChannel_missing h hid

end ChannelCall

/-- **The depth of the session mutex.**  A message function returns with the session mutex at the
depth it had on entry iff the lock was refused or the channel exists. -/
theorem channelCall_depth_iff {μ : Type} (call : ChannelCall) (id : ChannelId) (timestamp : ℤ)
    (message : Option (List UInt8)) (w : World μ) :
    ((call.exec id timestamp message).run w).state.depth .session = w.depth .session ↔
      w.refuses .session ∨ ∃ channel, w.channels.lookup id = some channel := by
  constructor
  · intro hdepth
    by_contra hno
    rw [not_or] at hno
    obtain ⟨hr, hmissing⟩ := hno
    have hid : w.channels.lookup id = none := by
      cases hc : w.channels.lookup id with
      | none => rfl
      | some channel => exact absurd ⟨channel, hc⟩ hmissing
    rw [call.exec_missing hr hid] at hdepth
    simp [LockOp.apply] at hdepth
  · intro h
    have hfound : w.refuses .session ∨ (w.channels.lookup id).isSome := by
      rcases h with h | ⟨channel, hc⟩
      · exact .inl h
      · exact .inr (by rw [hc]; rfl)
    have hb : Session.Balanced w ((call.exec id timestamp message).run w) :=
      call.exec_balanced hfound
    rw [hb.frame.depth]

/-- A message for the channel `aaaa` that does not exist leaves the session locked. -/
theorem channelCall_missing_channel_stays_locked :
    InRange 0 ∧ ∀ call : ChannelCall,
      ((call.exec 0 currentTimeReference none).run (World.idle ())).state.depth .session ≠
        (World.idle ()).depth .session := by
  refine ⟨by decide, fun call => ?_⟩
  rw [call.exec_missing (by decide) rfl]
  decide

end XprcServer
