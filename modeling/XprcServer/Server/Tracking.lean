import XprcServer.Commands.Cmrg

/-!
# What running commands remember

A command sends on the channel it was created on, and it finds that channel by the identifier it
remembers.  `handle_request` relies on this when it terminates a command (`SessionWorld`).

`Tracking` is what it takes of the commands for this to last: a command that is created remembers
its channel, and one that forgets it, when it is terminated, has requested the end of the channel.
CMRG is such a command (`cmrgTracking`).

* `handleRequest_tracks` : a request leaves the running commands with the channels they run on;
* `sessionWorld_of_reachable` : so it is in every state of a session, whatever requests it got and
  whatever other threads did to it between them;
* `handleRequest_depth_of_reachable`, `handleRequest_depth_cmrg` : what follows for the locks.
-/

namespace XprcServer

open Lib
open Logged (Leads)

/-- Between `w` and `w'` no channel was opened, and none got another command. -/
def World.Aged {μ : Type} (w w' : World μ) : Prop :=
  ∀ id channel', w'.channels.lookup id = some channel' →
    ∃ channel, w.channels.lookup id = some channel ∧ channel'.command = channel.command ∧
      channel'.commandRef = channel.commandRef ∧
      (channel'.destructionRequested = false → channel.destructionRequested = false)

/-- Moreover, the commands did nothing to their memory. -/
structure World.Steady {μ : Type} (w w' : World μ) : Prop where
  aged : w.Aged w'
  memory : w'.memory = w.memory

/-- Between `w` and `w'` no channel was opened, none got another identifier or command, and a
connection that was closing still is. -/
structure World.Retains {μ : Type} (w w' : World μ) : Prop where
  channels : ∀ id channel', w'.channels.lookup id = some channel' →
    ∃ channel, w.channels.lookup id = some channel ∧ channel'.id = channel.id ∧
      channel'.command = channel.command ∧ channel'.commandRef = channel.commandRef ∧
      (channel'.destructionRequested = false → channel.destructionRequested = false)
  closing : w.closing = true → w'.closing = true

/-- Moreover, the commands did nothing to their memory. -/
structure World.Settles {μ : Type} (w w' : World μ) : Prop extends w.Retains w' where
  memory : w'.memory = w.memory

/-- Between `w` and `w'` nothing but messages were sent: the channels are the same, but for their
states, and the commands did nothing to their memory. -/
structure World.Speaks {μ : Type} (w w' : World μ) : Prop where
  channels : w.channels.Resembles w'.channels
  memory : w'.memory = w.memory
  env : w'.env = w.env
  closing : w.closing = true → w'.closing = true

namespace World

variable {μ : Type} {w w' w'' : World μ} {id : ChannelId} {command : Command} {ref : ℕ}

theorem Aged.of_lookup (h : ∀ id, w'.channels.lookup id = w.channels.lookup id) : w.Aged w' :=
  fun id channel hid => ⟨channel, by rw [← h id]; exact hid, rfl, rfl, fun hd => hd⟩

theorem Aged.trans (h : w.Aged w') (h' : w'.Aged w'') : w.Aged w'' := by
  intro id channel'' hid
  obtain ⟨channel', hid', hcommand', href', hend'⟩ := h' id channel'' hid
  obtain ⟨channel, hid, hcommand, href, hend⟩ := h id channel' hid'
  exact ⟨channel, hid, hcommand'.trans hcommand, href'.trans href, fun hd => hend (hend' hd)⟩

/-- A command that runs now was running before. -/
theorem Aged.runs (h : w.Aged w') (hr : w'.Runs id command ref) : w.Runs id command ref := by
  obtain ⟨channel', hid', hend, hcommand, href⟩ := hr
  obtain ⟨channel, hid, hc, hr, hd⟩ := h id channel' hid'
  exact ⟨channel, hid, hd hend, hc ▸ hcommand, hr ▸ href⟩

theorem Aged.modify {f : Channel → Channel} (hcommand : ∀ c, (f c).command = c.command)
    (href : ∀ c, (f c).commandRef = c.commandRef)
    (hend : ∀ c, (f c).destructionRequested = false → c.destructionRequested = false) :
    w.Aged { w with channels := w.channels.modify id f } := by
  intro id' channel' hid'
  by_cases hne : id' = id
  · subst hne
    rw [ChannelsTable.lookup_modify_self] at hid'
    obtain ⟨channel, hid, rfl⟩ := Option.map_eq_some_iff.1 hid'
    exact ⟨channel, hid, hcommand channel, href channel, hend channel⟩
  · rw [ChannelsTable.lookup_modify_of_ne hne] at hid'
    exact ⟨channel', hid', rfl, rfl, fun hd => hd⟩

theorem Steady.of_eq (hchannels : w'.channels = w.channels) (hmemory : w'.memory = w.memory) :
    w.Steady w' :=
  ⟨.of_lookup fun _ => by rw [hchannels], hmemory⟩

instance : Std.Refl (@Steady μ) := ⟨fun _ => .of_eq rfl rfl⟩

instance : IsTrans (World μ) Steady :=
  ⟨fun _ _ _ h h' => ⟨h.aged.trans h'.aged, h'.memory.trans h.memory⟩⟩

theorem Retains.aged (h : w.Retains w') : w.Aged w' := by
  intro id channel' hid'
  obtain ⟨channel, hid, -, hcommand, href, hend⟩ := h.channels id channel' hid'
  exact ⟨channel, hid, hcommand, href, hend⟩

theorem Retains.of_lookup (hlookup : ∀ id, w'.channels.lookup id = w.channels.lookup id)
    (hclosing : w.closing = true → w'.closing = true) : w.Retains w' := by
  refine ⟨fun id channel hid => ⟨channel, ?_, rfl, rfl, rfl, fun hd => hd⟩, hclosing⟩
  rw [← hlookup id]
  exact hid

instance : Std.Refl (@Retains μ) := ⟨fun _ => .of_lookup (fun _ => rfl) fun h => h⟩

instance : IsTrans (World μ) Retains where
  trans _ _ _ h h' := by
    refine ⟨fun id channel'' hid => ?_, fun hc => h'.closing (h.closing hc)⟩
    obtain ⟨channel', hid', hkey', hcommand', href', hend'⟩ := h'.channels id channel'' hid
    obtain ⟨channel, hid, hkey, hcommand, href, hend⟩ := h.channels id channel' hid'
    exact ⟨channel, hid, hkey'.trans hkey, hcommand'.trans hcommand, href'.trans href,
      fun hd => hend (hend' hd)⟩

theorem Settles.steady (h : w.Settles w') : w.Steady w' := ⟨h.aged, h.memory⟩

theorem Settles.of_eq (hchannels : w'.channels = w.channels) (hmemory : w'.memory = w.memory)
    (hclosing : w.closing = true → w'.closing = true) : w.Settles w' :=
  ⟨.of_lookup (fun _ => by rw [hchannels]) hclosing, hmemory⟩

instance : Std.Refl (@Settles μ) := ⟨fun _ => .of_eq rfl rfl fun h => h⟩

instance : IsTrans (World μ) Settles :=
  ⟨fun _ _ _ h h' => ⟨IsTrans.trans _ _ _ h.toRetains h'.toRetains, h'.memory.trans h.memory⟩⟩

instance : Std.Refl (@Speaks μ) := ⟨fun _ => ⟨.refl, rfl, rfl, fun h => h⟩⟩

instance : IsTrans (World μ) Speaks :=
  ⟨fun _ _ _ h h' => ⟨h.channels.trans h'.channels, h'.memory.trans h.memory, h'.env.trans h.env,
    fun hc => h'.closing (h.closing hc)⟩⟩

theorem Speaks.settles (h : w.Speaks w') : w.Settles w' := by
  refine ⟨⟨fun id channel' hid' => ?_, h.closing⟩, h.memory⟩
  obtain ⟨channel, hid, hstill⟩ := h.channels.exists_channel hid'
  obtain ⟨hkey, -, hend, hcommand, href⟩ := Channel.mk.inj hstill
  exact ⟨channel, hid, hkey, hcommand, href, fun hd => hend ▸ hd⟩

theorem Ticks.speaks (h : w.Ticks w') : w.Speaks w' := by
  obtain ⟨n, -, rfl⟩ := h
  exact ⟨.refl, rfl, rfl, fun h => h⟩

theorem Ticks.settles (h : w.Ticks w') : w.Settles w' := h.speaks.settles

end World

/-! ### Messages -/

section

open Session

variable {μ α : Type}

theorem ask_speaks (f : Environment → ℕ → α) : Leads World.Speaks (ask f : M μ α) :=
  fun _ => ⟨.refl, rfl, rfl, fun h => h⟩

theorem ask_settles (f : Environment → ℕ → α) : Leads World.Settles (ask f : M μ α) :=
  (ask_speaks f).mono fun _ _ => World.Speaks.settles

theorem ask_steady (f : Environment → ℕ → α) : Leads World.Steady (ask f : M μ α) :=
  (ask_settles f).mono fun _ _ => World.Settles.steady

theorem lockFlagged_speaks (l : Lock) : Leads World.Speaks (lockFlagged l : M μ ErrorCode) := by
  intro w
  by_cases h : w.refuses l
  · obtain ⟨n, -, -, hstate, -⟩ := lockFlagged_refused h
    rw [hstate]
    exact ⟨.refl, rfl, rfl, fun h => h⟩
  · rw [lockFlagged_granted h]
    exact ⟨.refl, rfl, rfl, fun h => h⟩

theorem lockFlagged_settles (l : Lock) : Leads World.Settles (lockFlagged l : M μ ErrorCode) :=
  (lockFlagged_speaks l).mono fun _ _ => World.Speaks.settles

theorem lockFlagged_steady (l : Lock) : Leads World.Steady (lockFlagged l : M μ ErrorCode) :=
  (lockFlagged_settles l).mono fun _ _ => World.Settles.steady

theorem mtxUnlock_speaks (l : Lock) : Leads World.Speaks (mtxUnlock l : M μ Unit) :=
  fun _ => ⟨.refl, rfl, rfl, fun h => h⟩

theorem mtxUnlock_settles (l : Lock) : Leads World.Settles (mtxUnlock l : M μ Unit) :=
  (mtxUnlock_speaks l).mono fun _ _ => World.Speaks.settles

theorem mtxUnlock_steady (l : Lock) : Leads World.Steady (mtxUnlock l : M μ Unit) :=
  (mtxUnlock_settles l).mono fun _ _ => World.Settles.steady

/-- The locks have no part in what a relation between worlds says about channels and memory. -/
theorem locked_leads {R : World μ → World μ → Prop} [IsTrans (World μ) R] [Std.Refl R]
    (hR : ∀ w w' : World μ, w.Speaks w' → R w w') {l : Lock} {refused : ErrorCode → α}
    {body : M μ α} (hbody : Leads R body) : Leads R (locked l refused body) := by
  refine .bind ((lockFlagged_speaks l).mono hR) fun err => .ite ?_ (.pure _)
  exact .bind hbody fun result => .bind ((mtxUnlock_speaks l).mono hR) fun _ => .pure result

theorem sendToNetwork_speaks (line : List UInt8) :
    Leads World.Speaks (Session.sendToNetwork line : M μ ErrorCode) := by
  refine .bind (ask_speaks _) fun err => .bind (.update fun w => ?_) fun _ => .pure err
  split_ifs <;> exact ⟨.refl, rfl, rfl, fun h => h⟩

theorem sendToNetwork_settles (line : List UInt8) :
    Leads World.Settles (Session.sendToNetwork line : M μ ErrorCode) :=
  (sendToNetwork_speaks line).mono fun _ _ => World.Speaks.settles

/-- Only the state of a channel changes when a message is sent on it. -/
theorem modifyState_speaks (id : ChannelId) (state : ChannelState) (w : World μ) :
    w.Speaks { w with channels := w.channels.modify id fun channel =>
      { channel with state := state } } := by
  refine ⟨fun id' => ?_, rfl, rfl, fun h => h⟩
  by_cases hne : id' = id
  · subst hne
    rw [ChannelsTable.lookup_modify_self, Option.map_map]
    rfl
  · rw [ChannelsTable.lookup_modify_of_ne hne]

theorem sendChannel_speaks (id : ChannelId) (channel : Channel) (action : ChannelAction)
    (timestamp : ℤ) (message : Option (List UInt8)) :
    Leads World.Speaks (sendChannel id channel action timestamp message : M μ ErrorCode) := by
  refine .bind ((resolveTimestamp_ticks timestamp).leads.mono fun _ _ => World.Ticks.speaks)
    fun timestamp => .ite (.pure _) (.ite (.pure _) (.bind (ask_speaks _) fun _ => ?_))
  refine .ite (.bind (sendToNetwork_speaks _) fun err => .bind (.update fun w => ?_) fun _ =>
    .pure err) (.pure _)
  exact modifyState_speaks id _ w

theorem onChannel_speaks (id : ChannelId) {body : Channel → M μ ErrorCode}
    (hbody : ∀ channel, Leads World.Speaks (body channel)) :
    Leads World.Speaks (onChannel id body) := by
  refine .bind (.bind (lockFlagged_speaks _) fun err => .pure _) fun success => .ite ?_ (.pure _)
  refine .bind (.read _) fun channel => ?_
  cases channel with
  | none => exact .pure _
  | some channel =>
    exact .bind (hbody channel) fun err => .bind (mtxUnlock_speaks _) fun _ => .pure err

/-- Messages, and nothing else. -/
theorem ChannelCall.exec_speaks (call : ChannelCall) (id : ChannelId) (timestamp : ℤ)
    (message : Option (List UInt8)) :
    Leads World.Speaks (call.exec id timestamp message : M μ ErrorCode) := by
  have herror : ∀ text, Leads World.Speaks (errorChannel id timestamp text : M μ ErrorCode) :=
    fun text => onChannel_speaks id fun channel => sendChannel_speaks id channel _ _ _
  have hmessage : ∀ kind failure,
      Leads World.Speaks (messageChannel kind failure id timestamp message : M μ ErrorCode) := by
    intro kind failure
    refine onChannel_speaks id fun channel => .bind (sendChannel_speaks id channel _ _ _) fun err =>
      ?_
    exact .ite (.bind (herror _) fun _ => .pure _) (.pure _)
  cases call with
  | confirm => exact hmessage _ _
  | continues => exact hmessage _ _
  | finish => exact hmessage _ _
  | error => exact herror _

theorem ChannelCall.exec_settles (call : ChannelCall) (id : ChannelId) (timestamp : ℤ)
    (message : Option (List UInt8)) :
    Leads World.Settles (call.exec id timestamp message : M μ ErrorCode) :=
  (call.exec_speaks id timestamp message).mono fun _ _ => World.Speaks.settles

theorem ChannelCall.exec_steady (call : ChannelCall) (id : ChannelId) (timestamp : ℤ)
    (message : Option (List UInt8)) :
    Leads World.Steady (call.exec id timestamp message : M μ ErrorCode) :=
  (call.exec_settles id timestamp message).mono fun _ _ => World.Settles.steady

namespace Server

theorem closeNetworkConnection_settles : Leads World.Settles (closeNetworkConnection : M μ Unit) :=
  .update fun _ => .of_eq rfl rfl fun _ => rfl

theorem sendTimestamped_settles (line : ℤ → List UInt8) :
    Leads World.Settles (sendTimestamped line : M μ Unit) := by
  refine .bind (millisSinceReference_ticks.leads.mono fun _ _ => World.Ticks.settles) fun _ => ?_
  refine .bind (ask_settles _) fun _ => .ite ?_ closeNetworkConnection_settles
  exact .bind (sendToNetwork_settles _) fun _ => .ite closeNetworkConnection_settles (.pure _)

theorem sendTimestamped_steady (line : ℤ → List UInt8) :
    Leads World.Steady (sendTimestamped line : M μ Unit) :=
  (sendTimestamped_settles line).mono fun _ _ => World.Settles.steady

theorem popChannel_settles (id : ChannelId) : Leads World.Settles (popChannel id : M μ Bool) := by
  intro w
  obtain ⟨table', hrun, hgone, hkept⟩ := popChannel_spec id w
  rw [hrun]
  refine ⟨⟨fun id' channel' hid' => ?_, fun h => h⟩, rfl⟩
  change table'.lookup id' = some channel' at hid'
  by_cases hne : id' = id
  · rw [hne, hgone] at hid'; cases hid'
  · exact ⟨channel', by rw [← hkept id' hne]; exact hid', rfl, rfl, rfl, fun hd => hd⟩

theorem dropChannel_settles (id : ChannelId) (err : ErrorCode) :
    Leads World.Settles (dropChannel id err : M μ Unit) :=
  .ite closeNetworkConnection_settles
    (.bind (popChannel_settles id) fun _ => .ite (.pure _) closeNetworkConnection_settles)

theorem dropChannel_steady (id : ChannelId) (err : ErrorCode) :
    Leads World.Steady (dropChannel id err : M μ Unit) :=
  (dropChannel_settles id err).mono fun _ _ => World.Settles.steady

end Server

end

/-! ### Requests -/

/-- Between `w` and `w'` no command was started, the memory stayed valid, and the commands that run
still remember what they remembered. -/
structure Tracks {μ : Type} (cmds : Commands μ) (valid : μ → Prop) (w w' : World μ) : Prop where
  aged : w.Aged w'
  stays : valid w.memory → valid w'.memory
  remembered : ∀ id command ref, valid w.memory → w'.Runs id command ref →
    cmds.channelOf w.memory command ref = some id → cmds.channelOf w'.memory command ref = some id

/-- Commands that keep track of their channels; `valid` is what they rely on in their memory. -/
structure Tracking {μ : Type} (cmds : Commands μ) where
  valid : μ → Prop
  create_tracks : ∀ command request version, Leads (Tracks cmds valid)
    (cmds.create command request version)
  create_remembers : ∀ command request version (w : World μ) ref, valid w.memory →
    ((cmds.create command request version).run w).val.2 = some ref →
    cmds.channelOf ((cmds.create command request version).run w).state.memory command ref =
      some request.channelId
  terminate_tracks : ∀ command ref, Leads (Tracks cmds valid) (cmds.terminate command ref)

/-- Valid memory, and commands that remember the channels they run on. -/
structure Tracking.Sound {μ : Type} {cmds : Commands μ} (T : Tracking cmds) (w : World μ) :
    Prop where
  valid : T.valid w.memory
  remembers : ∀ id command ref, w.Runs id command ref →
    cmds.channelOf w.memory command ref = some id

section

variable {μ α β : Type} {cmds : Commands μ} {valid : μ → Prop} {w w' : World μ}

theorem World.Steady.tracks (h : w.Steady w') : Tracks cmds valid w w' :=
  ⟨h.aged, fun hv => h.memory ▸ hv, fun _ _ _ _ _ hr => h.memory ▸ hr⟩

instance : Std.Refl (Tracks cmds valid) := ⟨fun w => (Std.Refl.refl w : w.Steady w).tracks⟩

instance : IsTrans (World μ) (Tracks cmds valid) where
  trans _ _ _ h h' :=
    ⟨h.aged.trans h'.aged, fun hv => h'.stays (h.stays hv), fun id command ref hv hr hrem =>
      h'.remembered id command ref (h.stays hv) hr
        (h.remembered id command ref hv (h'.aged.runs hr) hrem)⟩

variable {T : Tracking cmds}

theorem Tracking.Sound.tracks (h : T.Sound w) (ht : Tracks cmds T.valid w w') : T.Sound w' :=
  ⟨ht.stays h.valid, fun id command ref hr =>
    ht.remembered id command ref h.valid hr (h.remembers id command ref (ht.aged.runs hr))⟩

theorem Tracking.Sound.steady (h : T.Sound w) (hw : w.Steady w') : T.Sound w' := h.tracks hw.tracks

namespace Server

open Session

/-- The channel put for a request has no command yet. -/
theorem putChannel_sound (h : T.Sound w) (id : ChannelId) :
    let r := (putChannel ⟨id, .initial, false, none, none⟩).run w
    T.Sound r.state ∧ (r.val = true →
      r.state.channels.lookup id = some ⟨id, .initial, false, none, none⟩) := by
  intro r
  obtain ⟨stored, table', hrun, hresult⟩ := putChannel_spec ⟨id, .initial, false, none, none⟩ w
  simp only [r, hrun]
  refine ⟨⟨h.valid, ?_⟩, fun hstored => ?_⟩
  · rintro id' command ref ⟨channel, hid', hend, hcommand, href⟩
    change table'.lookup id' = some channel at hid'
    rcases hresult with ⟨-, hch, hkept⟩ | ⟨-, hkept⟩
    · by_cases hne : id' = id
      · rw [hne, hch] at hid'
        cases hid'
        cases href
      · rw [hkept id' hne] at hid'
        exact h.remembers id' command ref ⟨channel, hid', hend, hcommand, href⟩
    · rw [hkept id'] at hid'
      exact h.remembers id' command ref ⟨channel, hid', hend, hcommand, href⟩
  · rcases hresult with ⟨-, hch, -⟩ | ⟨hno, -⟩
    · exact hch
    · rw [hstored] at hno; cases hno

/-- The command is created on a channel that has none, and its reference stored there. -/
theorem createCommand_sound (h : T.Sound w) {request : Request} {channel : Channel}
    (hid : w.channels.lookup request.channelId = some channel) (hnew : channel.commandRef = none) :
    T.Sound ((createCommand cmds request).run w).state := by
  unfold createCommand
  cases Command.ofName request.commandName with
  | none => exact h
  | some command =>
    dsimp only
    rw [Logged.run_bind, Outcome.after_state]
    set w₁ := ((modifyChannel request.channelId fun channel =>
      { channel with command := some command } : M μ Unit).run w).state with hw₁
    have hid₁ : w₁.channels.lookup request.channelId =
        some { channel with command := some command } := by
      rw [hw₁]
      change (w.channels.modify _ _).lookup _ = _
      rw [ChannelsTable.lookup_modify_self, hid]
      rfl
    have h₁ : T.Sound w₁ := by
      refine ⟨h.valid, ?_⟩
      rintro id' command' ref ⟨channel', hid', hend, hcommand, href⟩
      by_cases hne : id' = request.channelId
      · rw [hne, hid₁] at hid'
        cases hid'
        rw [show channel.commandRef = some ref from href] at hnew
        cases hnew
      · change (w.channels.modify _ _).lookup _ = _ at hid'
        rw [ChannelsTable.lookup_modify_of_ne hne] at hid'
        exact h.remembers id' command' ref ⟨channel', hid', hend, hcommand, href⟩
    have hconfig : w₁.Steady ((getCommandConfiguration command).run w₁).state :=
      locked_leads (fun _ _ h => h.settles.steady) (.read _) w₁
    rw [Logged.run_bind, Outcome.after_state]
    set w₂ := ((getCommandConfiguration command).run w₁).state
    cases ((getCommandConfiguration command).run w₁).val with
    | none => exact h₁.steady hconfig
    | some config =>
      have h₂ := h₁.steady hconfig
      have hcreate := T.create_tracks command request config.version w₂
      have hremembers := T.create_remembers command request config.version w₂
      dsimp only
      rw [Logged.run_bind, Outcome.after_state]
      set r := (cmds.create command request config.version).run w₂
      have h₃ := h₂.tracks hcreate
      refine ⟨h₃.valid, ?_⟩
      rintro id' command' ref ⟨channel', hid', hend, hcommand, href⟩
      change (r.state.channels.modify _ _).lookup _ = _ at hid'
      by_cases hne : id' = request.channelId
      · -- the reference that was just stored: it is the one of `command`
        subst hne
        rw [ChannelsTable.lookup_modify_self] at hid'
        obtain ⟨channel₃, hid₃, rfl⟩ := Option.map_eq_some_iff.1 hid'
        obtain ⟨channel₁, hid₁', hc, -⟩ := (hconfig.aged.trans hcreate.aged) _ channel₃ hid₃
        rw [hid₁] at hid₁'
        cases hid₁'
        rw [show channel₃.command = some command' from hcommand] at hc
        cases hc
        exact hremembers ref h₂.valid href
      · rw [ChannelsTable.lookup_modify_of_ne hne] at hid'
        exact h₃.remembers id' command' ref ⟨channel', hid', hend, hcommand, href⟩

theorem handleCommandRequest_sound (h : T.Sound w) (request : Request) :
    T.Sound ((handleCommandRequest cmds request).run w).state := by
  unfold handleCommandRequest
  rw [Logged.run_bind, Session.run_getChannel, Outcome.after_nil]
  cases w.channels.lookup request.channelId with
  | some channel => exact h.steady (sendTimestamped_steady _ w)
  | none =>
    dsimp only
    rw [Logged.run_bind, Outcome.after_state, Logged.run_ite]
    have h₁ : T.Sound (Session.allocate.run w).state := h.steady (ask_steady _ w)
    set w₁ := (Session.allocate.run w).state
    split_ifs
    swap
    · exact h₁.steady (sendTimestamped_steady _ w₁)
    obtain ⟨h₂, hstored⟩ := putChannel_sound h₁ request.channelId
    rw [Logged.run_bind, Outcome.after_state, Logged.run_ite]
    split_ifs with hsuccess
    swap
    · exact h₂.steady (sendTimestamped_steady _ _)
    have h₃ := createCommand_sound h₂ (hstored hsuccess) rfl
    rw [Logged.run_bind, Outcome.after_state, Logged.run_ite]
    have hdrop : ∀ (call : ChannelCall) (text : Option (List UInt8)), Leads World.Steady (do
        let err ← call.exec request.channelId currentTimeReference text
        dropChannel request.channelId err : M μ Unit) := fun call text =>
      .bind (call.exec_steady _ _ _) fun err => dropChannel_steady _ err
    split_ifs
    · exact h₃.steady (hdrop .error _ _)
    · rw [Logged.run_bind, Session.run_getChannel, Outcome.after_nil]
      cases (((createCommand cmds request).run _).state.channels.lookup request.channelId) with
      | none => exact h₃
      | some channel =>
        dsimp only
        rw [Logged.run_ite]
        split_ifs
        · exact h₃.steady (hdrop .finish _ _)
        · exact h₃

theorem handleTerminationRequest_sound (h : T.Sound w) (request : Request) :
    T.Sound ((handleTerminationRequest cmds request).run w).state := by
  refine h.tracks ?_
  refine (?_ : Leads (Tracks cmds T.valid) (handleTerminationRequest cmds request)) w
  have hsend : ∀ line, Leads (Tracks cmds T.valid) (sendTimestamped line : M μ Unit) := fun line =>
    (sendTimestamped_steady line).mono fun _ _ => World.Steady.tracks
  refine .bind (.read _) fun channel => ?_
  cases channel with
  | none => exact hsend _
  | some channel =>
    refine .ite (hsend _) ?_
    cases channel.command with
    | none => exact .pure _
    | some command =>
      refine .bind (T.terminate_tracks command channel.commandRef) fun err => .ite ?_ (.pure _)
      exact .update fun w => World.Steady.tracks (.of_eq rfl rfl)

end Server

/-- **Requests keep commands and channels together.**  If all running commands remember the channels
they run on, they do so after a request. -/
theorem handleRequest_tracks (T : Tracking cmds) (h : T.Sound w) (request : Request) :
    T.Sound ((Server.handleRequest cmds request).run w).state := by
  have hclose : ∀ w : World μ, w.Steady (Server.closeNetworkConnection.run w).state :=
    fun _ => .of_eq rfl rfl
  unfold Server.handleRequest
  rw [Logged.run_bind, Outcome.after_state, Logged.run_ite]
  have h₁ : T.Sound (lockSchedule.run w).state := h.steady (lockFlagged_steady .schedule w)
  set w₁ := (lockSchedule.run w).state
  split_ifs
  · exact h₁.steady (hclose w₁)
  rw [Logged.run_bind, Outcome.after_state, Logged.run_ite]
  have h₂ : T.Sound (lockSession.run w₁).state := h₁.steady (lockFlagged_steady .session w₁)
  set w₂ := (lockSession.run w₁).state
  split_ifs
  · have h₃ : T.Sound ((Server.handleLocked cmds request).run w₂).state := by
      unfold Server.handleLocked
      rw [Logged.run_ite]
      split_ifs
      · exact Server.handleTerminationRequest_sound h₂ request
      · exact Server.handleCommandRequest_sound h₂ request
    rw [Logged.run_bind, Outcome.after_state]
    exact (h₃.steady (mtxUnlock_steady .session _)).steady (mtxUnlock_steady .schedule _)
  · exact h₂.steady (hclose w₂)

/-! ### The life of a session -/

/-- What happens to a session: it gets a request, or other threads work on it. -/
inductive SessionAct where
  | request (request : Request)
  | others

/-- A session from its start on.  Other threads keep track of channels as terminating commands
do. -/
def sessionSystem (T : Tracking cmds) : System (World μ) SessionAct where
  init w := T.valid w.memory ∧ ∀ id, w.channels.lookup id = none
  next w a w' :=
    match a with
    | .request request => w' = ((Server.handleRequest cmds request).run w).state
    | .others => Tracks cmds T.valid w w'

/-- In every state of a session the running commands remember the channels they run on. -/
theorem sessionWorld_of_reachable (h : (sessionSystem T).Reachable w) :
    ∃ s : SessionWorld cmds, s.world = w := by
  have hsound : T.Sound w := by
    refine h.invariant ?_ ?_
    · rintro w ⟨hvalid, hempty⟩
      refine ⟨hvalid, ?_⟩
      rintro id command ref ⟨channel, hid, -⟩
      rw [hempty id] at hid
      cases hid
    · rintro w (request | _) w' - hs hn
      · rw [show w' = _ from hn]
        exact handleRequest_tracks T hs request
      · exact hs.tracks hn
  exact ⟨⟨w, hsound.remembers⟩, rfl⟩

/-- In every state of a session, a request that gets both locks leaves all locks as it found
them. -/
theorem handleRequest_depth_of_reachable (h : (sessionSystem T).Reachable w) (request : Request)
    (hschedule : ¬ w.refuses .schedule) (hsession : ¬ (w.holding .schedule).refuses .session) :
    ((Server.handleRequest cmds request).run w).state.depth = w.depth := by
  obtain ⟨s, rfl⟩ := sessionWorld_of_reachable h
  exact Server.handleRequest_granted_depth cmds request s hschedule hsession

end

/-! ### CMRG -/

namespace Cmrg

open Session Xpcommands

variable {α : Type} {w w' : World CmrgMemory} {ref : ℕ}

/-- No address was given away before its turn. -/
def Fresh (m : CmrgMemory) : Prop := ∀ ref, m.next ≤ ref → m.cmrg ref = none

/-- Between `w` and `w'` one worked on the command `ref`, which remembers its channel as before or
was freed. -/
structure Tends (ref : ℕ) (w w' : World CmrgMemory) : Prop where
  aged : w.Aged w'
  others : ∀ r, r ≠ ref → w'.memory.cmrg r = w.memory.cmrg r
  next : w.memory.next ≤ w'.memory.next
  own : (w'.memory.cmrg ref).map CommandCmrg.channelId =
      (w.memory.cmrg ref).map CommandCmrg.channelId ∨ w'.memory.cmrg ref = none

/-- Moreover, the command was not freed. -/
structure Serves (ref : ℕ) (w w' : World CmrgMemory) : Prop extends Tends ref w w' where
  alive : (w'.memory.cmrg ref).map CommandCmrg.channelId =
    (w.memory.cmrg ref).map CommandCmrg.channelId

theorem serves_of_steady (h : w.Steady w') : Serves ref w w' :=
  ⟨⟨h.aged, fun _ _ => by rw [h.memory], Nat.le_of_eq (by rw [h.memory]), .inl (by rw [h.memory])⟩,
    by rw [h.memory]⟩

instance : Std.Refl (Serves ref) := ⟨fun w => serves_of_steady (Std.Refl.refl w)⟩

theorem Tends.trans {w'' : World CmrgMemory} (h : Tends ref w w') (h' : Tends ref w' w'') :
    Tends ref w w'' where
  aged := h.aged.trans h'.aged
  others r hr := (h'.others r hr).trans (h.others r hr)
  next := Nat.le_trans h.next h'.next
  own := by
    rcases h'.own with hsame | hnone
    · rcases h.own with hown | hown
      · exact .inl (hsame.trans hown)
      · rw [hown, Option.map_none, Option.map_eq_none_iff] at hsame
        exact .inr hsame
    · exact .inr hnone

instance : IsTrans (World CmrgMemory) (Serves ref) :=
  ⟨fun _ _ _ h h' => ⟨h.toTends.trans h'.toTends, h'.alive.trans h.alive⟩⟩

instance : Std.Refl (Tends ref) := ⟨fun w => (Std.Refl.refl w : Serves ref w w).toTends⟩

instance : IsTrans (World CmrgMemory) (Tends ref) := ⟨fun _ _ _ => Tends.trans⟩

/-- Memory other than that of the commands. -/
theorem serves_updateMemory {f : CmrgMemory → CmrgMemory} (hcmrg : ∀ m, (f m).cmrg = m.cmrg)
    (hnext : ∀ m, m.next ≤ (f m).next) : Leads (Serves ref) (updateMemory f) :=
  fun w => ⟨⟨.of_lookup fun _ => rfl, fun _ _ => congrFun (hcmrg w.memory) _, hnext w.memory,
    .inl (congrArg (Option.map _) (congrFun (hcmrg w.memory) _))⟩,
    congrArg (Option.map _) (congrFun (hcmrg w.memory) _)⟩

theorem serves_modifyCommand {f : CommandCmrg → CommandCmrg}
    (hf : ∀ command, (f command).channelId = command.channelId) :
    Leads (Serves ref) (modifyCommand ref f) := by
  intro w
  have halive : ((((modifyCommand ref f).run w).state.memory.cmrg ref).map CommandCmrg.channelId) =
      (w.memory.cmrg ref).map CommandCmrg.channelId := by
    simp only [modifyCommand, updateMemory, Logged.run_update, Function.update_self, Option.map_map]
    exact congrArg (fun g => (w.memory.cmrg ref).map g) (funext hf)
  refine ⟨⟨.of_lookup fun _ => rfl, fun r hr => ?_, Nat.le_refl _, .inl halive⟩, halive⟩
  exact Function.update_of_ne hr _ _

theorem tends_destroy (ref : ℕ) : Leads (Tends ref) (destroy ref) := by
  refine fun w => ⟨.of_lookup fun _ => rfl, fun r hr => ?_, Nat.le_refl _, .inr ?_⟩
  · exact Function.update_of_ne hr _ _
  · exact Function.update_self _ _ _

/-- Work on the new command `ref` that returns it or frees it. -/
def Yields (ref : ℕ) (p : M CmrgMemory (ErrorCode × Option ℕ)) : Prop :=
  ∀ w, Tends ref w (p.run w).state ∧
    ∀ r, (p.run w).val.2 = some r → r = ref ∧ Serves ref w (p.run w).state

theorem Yields.bind {p : M CmrgMemory α} {f : α → M CmrgMemory (ErrorCode × Option ℕ)}
    (hp : Leads (Serves ref) p) (hf : ∀ a, Yields ref (f a)) : Yields ref (p >>= f) := by
  intro w
  obtain ⟨htends, hyields⟩ := hf (p.run w).val (p.run w).state
  refine ⟨(hp w).toTends.trans htends, fun r hr => ?_⟩
  obtain ⟨hr, hserves⟩ := hyields r hr
  exact ⟨hr, IsTrans.trans _ _ _ (hp w) hserves⟩

theorem Yields.ite {c : Prop} [Decidable c] {p q : M CmrgMemory (ErrorCode × Option ℕ)}
    (hp : Yields ref p) (hq : Yields ref q) : Yields ref (if c then p else q) := by
  split_ifs
  · exact hp
  · exact hq

theorem serves_ask (f : Environment → ℕ → α) : Leads (Serves ref) (ask f : M CmrgMemory α) :=
  (ask_steady f).mono fun _ _ => serves_of_steady

theorem serves_newAddress : Leads (Serves ref) newAddress :=
  .bind (.read _) fun _ =>
    .bind (serves_updateMemory (fun _ => rfl) fun _ => Nat.le_succ _) fun _ =>
    .pure _

theorem serves_locked {l : Lock} {refused : ErrorCode → α} {body : M CmrgMemory α}
    (hbody : Leads (Serves ref) body) : Leads (Serves ref) (locked l refused body) :=
  locked_leads (fun _ _ h => serves_of_steady h.settles.steady) hbody

theorem yields_fail (ref : ℕ) (id : ChannelId) (text : String) : Yields ref (fail ref id text) := by
  refine fun w => ⟨?_, fun r hr => by cases hr⟩
  have hreject : Leads (Tends ref) (reject id text) :=
    .bind ((ChannelCall.exec_steady .error id _ _).mono fun _ _ h => (serves_of_steady h).toTends)
      fun _ => .pure _
  exact (Leads.bind hreject fun _ => .bind (tends_destroy ref) fun _ => .pure _ :
    Leads (Tends ref) (fail ref id text)) w

theorem yields_createTask (ref : ℕ) (id : ChannelId) : Yields ref (createTask ref id) := by
  refine .bind (serves_ask _) fun _ => .ite ?_ ?_
  · refine .bind serves_newAddress fun task => .bind (serves_locked ?_) fun err => .ite ?_ ?_
    · refine .bind (.bind (serves_ask _) fun _ => .ite (.pure _) (.bind (serves_ask _) fun _ => ?_))
        fun err => .ite (.bind (serves_modifyCommand fun _ => rfl) fun _ => .pure _) (.pure _)
      exact .ite (.bind (serves_updateMemory (fun _ => rfl) fun _ => Nat.le_refl _) fun _ =>
        .pure _) (.pure _)
    · exact fun w => ⟨Std.Refl.refl w, fun r hr => ⟨(Option.some.inj hr).symm, Std.Refl.refl w⟩⟩
    · exact fun w => ⟨(yields_fail ref id _ w).1, fun r hr => by cases hr⟩
  · exact fun w => ⟨tends_destroy ref w, fun r hr => by cases hr⟩

theorem yields_createProxy (ref : ℕ) (request : Request) (phase : XpcommandPhase)
    (propagate : XpcommandPropagation) : Yields ref (createProxy ref request phase propagate) := by
  have hcopy : ∀ s, Leads (Serves ref)
      (copyUnescapedString s : M CmrgMemory (Option (List UInt8))) := by
    intro s
    cases s with
    | none => exact .pure _
    | some s => exact .bind (serves_ask _) fun _ => .ite (.pure _) (.pure _)
  refine .bind (hcopy _) fun name => ?_
  cases name with
  | none => exact yields_fail _ _ _
  | some name =>
    refine .bind (hcopy _) fun description => ?_
    cases description with
    | none => exact yields_fail _ _ _
    | some description =>
      refine .ite (yields_fail _ _ _) (.bind ?_ fun proxy => ?_)
      · refine .bind (serves_ask _) fun _ => .ite ?_ (.pure _)
        refine .bind (serves_ask _) fun _ => .ite ?_ (.pure _)
        refine .bind (serves_ask _) fun _ => .ite (serves_locked ?_) (.pure _)
        refine .bind (serves_ask _) fun _ => .ite (.bind serves_newAddress fun _ => ?_) (.pure _)
        exact .bind (serves_updateMemory (fun _ => rfl) fun _ => Nat.le_refl _) fun _ => .pure _
      · cases proxy with
        | none => exact yields_fail _ _ _
        | some proxy =>
          exact .bind (serves_modifyCommand fun _ => rfl) fun _ => yields_createTask _ _

/-- What is left of `cmrg_create` once the command is allocated at `ref`. -/
def configure (ref : ℕ) (request : Request) : M CmrgMemory (ErrorCode × Option ℕ) :=
  match parseMonitor (request.getOption "monitor" "all") with
  | none => fail ref request.channelId "unsupported monitor option"
  | some monitor => do
    modifyCommand ref fun command => { command with monitor := monitor }
    match parsePhase (request.getOption "phase" "before") with
    | none => fail ref request.channelId "unsupported phase"
    | some phase =>
      match parsePropagation (request.getOption "propagate" "false") with
      | none => fail ref request.channelId "unsupported propagate option"
      | some propagate => createProxy ref request phase propagate

theorem yields_configure (ref : ℕ) (request : Request) : Yields ref (configure ref request) := by
  unfold configure
  cases parseMonitor (request.getOption "monitor" "all") with
  | none => exact yields_fail _ _ _
  | some monitor =>
    refine .bind (serves_modifyCommand fun _ => rfl) fun _ => ?_
    cases parsePhase (request.getOption "phase" "before") with
    | none => exact yields_fail _ _ _
    | some phase =>
      cases parsePropagation (request.getOption "propagate" "false") with
      | none => exact yields_fail _ _ _
      | some propagate => exact yields_createProxy _ _ _ _

/-- What `cmrg_create` leaves: the other commands as they were, and a new one that remembers its
channel if it returns one. -/
structure Creation (request : Request) (w : World CmrgMemory)
    (r : Outcome (World CmrgMemory) (LockOp Lock) (ErrorCode × Option ℕ)) : Prop where
  aged : w.Aged r.state
  fresh : Fresh r.state.memory
  others : ∀ c, w.memory.cmrg c ≠ none → r.state.memory.cmrg c = w.memory.cmrg c
  own : ∀ ref, r.val.2 = some ref →
    (r.state.memory.cmrg ref).map CommandCmrg.channelId = some request.channelId

theorem Creation.of_steady {request : Request} {w : World CmrgMemory}
    {r : Outcome (World CmrgMemory) (LockOp Lock) (ErrorCode × Option ℕ)}
    (hfresh : Fresh w.memory) (h : w.Steady r.state) (hval : r.val.2 = none) :
    Creation request w r where
  aged := h.aged
  fresh := by rw [h.memory]; exact hfresh
  others c _ := by rw [h.memory]
  own ref href := by rw [hval] at href; cases href

/-- The world once `cmrg_create` has allocated the command, at the next free address. -/
def allocated (request : Request) (w : World CmrgMemory) : World CmrgMemory :=
  { w.atTick (w.tick + 1) with
    memory := { w.memory with
      next := w.memory.next + 1
      cmrg := Function.update w.memory.cmrg w.memory.next
        (some ⟨request.channelId, none, ⟨false, false⟩, none, false, false⟩) } }

/-- `cmrg_create` gets as far as to allocate the command. -/
def Allocates (request : Request) (version : ℕ) (w : World CmrgMemory) : Prop :=
  version = commandVersion ∧ request.hasOnlyOptions supportedOptions = true ∧
    w.env.alloc w.tick = true

/-- `cmrg_create` gives up before it allocates the command, or configures the command. -/
theorem create_cases (request : Request) (version : ℕ) (w : World CmrgMemory) :
    (w.Speaks ((create request version).run w).state ∧
      ((create request version).run w).val.2 = none) ∨
    (Allocates request version w ∧
      ((create request version).run w).state =
        ((configure w.memory.next request).run (allocated request w)).state ∧
      ((create request version).run w).val =
        ((configure w.memory.next request).run (allocated request w)).val) := by
  have hreject : ∀ text, w.Speaks ((reject request.channelId text).run w).state := fun text =>
    (ChannelCall.exec_speaks .error _ _ _ : Leads World.Speaks _) w
  unfold create
  simp only [Logged.run_ite]
  split_ifs with hversion hoptions
  · exact .inl ⟨hreject _, rfl⟩
  · exact .inl ⟨hreject _, rfl⟩
  rw [Logged.run_bind, Logged.run_ite]
  split_ifs with halloc
  · rw [Classical.not_not] at hversion
    rw [Bool.not_eq_false] at hoptions
    exact .inr ⟨⟨hversion, hoptions, halloc⟩, rfl, rfl⟩
  · exact .inl ⟨⟨.refl, rfl, rfl, fun h => h⟩, rfl⟩

theorem create_aged (request : Request) (version : ℕ) (w : World CmrgMemory) :
    w.Aged ((create request version).run w).state := by
  rcases create_cases request version w with ⟨hspeaks, -⟩ | ⟨-, hstate, -⟩
  · exact hspeaks.settles.aged
  · rw [hstate]
    exact (yields_configure w.memory.next request (allocated request w)).1.aged

theorem create_creation (request : Request) (version : ℕ) {w : World CmrgMemory}
    (hfresh : Fresh w.memory) : Creation request w ((create request version).run w) := by
  have haged := create_aged request version w
  rcases create_cases request version w with ⟨hspeaks, hval⟩ | ⟨-, hstate, hval⟩
  · exact .of_steady hfresh hspeaks.settles.steady hval
  obtain ⟨htends, hyields⟩ := yields_configure w.memory.next request (allocated request w)
  rw [← hstate] at htends
  have hold : ∀ c, c ≠ w.memory.next → (allocated request w).memory.cmrg c = w.memory.cmrg c :=
    fun c hc => Function.update_of_ne hc _ _
  refine ⟨haged, ?_, ?_, ?_⟩
  · intro c hc
    have hnext : w.memory.next + 1 ≤ c := Nat.le_trans htends.next hc
    have hne : c ≠ w.memory.next := by omega
    exact (htends.others c hne).trans ((hold c hne).trans (hfresh c (by omega)))
  · intro c hc
    have hne : c ≠ w.memory.next := by
      rintro rfl
      exact hc (hfresh _ (Nat.le_refl _))
    exact (htends.others c hne).trans (hold c hne)
  · intro r hr
    rw [hval] at hr
    obtain ⟨rfl, hserves⟩ := hyields r hr
    rw [hstate]
    refine hserves.alive.trans ?_
    simp [allocated]

theorem unscheduleTask_serves (task : Option ℕ) : Leads (Serves ref) (unscheduleTask task) := by
  cases task with
  | none => exact .pure _
  | some task =>
    refine .bind (.read _) fun queue => .ite ?_ (.pure _)
    exact .bind (serves_updateMemory (fun _ => rfl) fun _ => Nat.le_refl _) fun _ => .pure _

theorem dropXpcommand_serves (proxy : Option ℕ) : Leads (Serves ref) (dropXpcommand proxy) := by
  cases proxy with
  | none => exact .pure _
  | some proxy =>
    refine .bind (.read _) fun found => ?_
    cases found with
    | none => exact .pure _
    | some found =>
      refine .ite (.pure _) (serves_locked (.bind (.read _) fun found => ?_))
      cases found with
      | none => exact .pure _
      | some found =>
        refine .ite (.bind (serves_updateMemory (fun _ => rfl) fun _ => Nat.le_refl _) fun _ => ?_)
          (.pure _)
        exact .pure _

/-- What `cmrg_terminate` does to the commands: the one it terminates remembers its channel, or the
end of that channel is requested. -/
structure Termination (ref : ℕ) (w w' : World CmrgMemory) : Prop where
  aged : w.Aged w'
  others : ∀ c, c ≠ ref → w'.memory.cmrg c = w.memory.cmrg c
  next : w.memory.next ≤ w'.memory.next
  own : (w'.memory.cmrg ref).map CommandCmrg.channelId =
      (w.memory.cmrg ref).map CommandCmrg.channelId ∨
    ∀ command channel, w.memory.cmrg ref = some command →
      w'.channels.lookup command.channelId = some channel → channel.destructionRequested = true

theorem Termination.of_serves (h : Serves ref w w') : Termination ref w w' :=
  ⟨h.aged, h.others, h.next, .inl h.alive⟩

theorem Termination.after_serves {w'' : World CmrgMemory} (h : Serves ref w w')
    (h' : Termination ref w' w'') (hsame : ∀ command, w.memory.cmrg ref = some command →
      ∃ command', w'.memory.cmrg ref = some command' ∧ command'.channelId = command.channelId) :
    Termination ref w w'' where
  aged := h.aged.trans h'.aged
  others c hc := (h'.others c hc).trans (h.others c hc)
  next := Nat.le_trans h.next h'.next
  own := by
    rcases h'.own with hown | hown
    · exact .inl (hown.trans h.alive)
    · refine .inr fun command channel hcommand hchannel => ?_
      obtain ⟨command', hcommand', hid⟩ := hsame command hcommand
      exact hown command' channel hcommand' (by rw [hid]; exact hchannel)

theorem Serves.exists_alive (h : Serves ref w w') {command : CommandCmrg}
    (hcommand : w.memory.cmrg ref = some command) :
    ∃ command', w'.memory.cmrg ref = some command' ∧ command'.channelId = command.channelId := by
  have halive := h.alive
  rw [hcommand, Option.map_some] at halive
  obtain ⟨command', hcommand', hid⟩ := Option.map_eq_some_iff.1 halive
  exact ⟨command', hcommand', hid⟩

/-- The last two steps of `cmrg_terminate`: the command forgets the channel whose end it
requests. -/
theorem forget_termination {command : CommandCmrg} (id : ChannelId)
    (hcommand : w.memory.cmrg ref = some command) (hid : command.channelId = id) :
    Termination ref w ((do
      modifyCommand ref fun command => { command with channelId := badChannelId }
      modifyChannel id fun channel => { channel with destructionRequested := true } :
        M CmrgMemory Unit).run w).state where
  aged := by
    have hforget : w.Aged ((modifyCommand ref fun command =>
        { command with channelId := badChannelId }).run w).state := .of_lookup fun _ => rfl
    exact hforget.trans (.modify (fun _ => rfl) (fun _ => rfl) fun _ hd => by cases hd)
  others c hc := Function.update_of_ne hc _ _
  next := Nat.le_refl _
  own := by
    refine .inr fun command' channel hcommand' hchannel => ?_
    rw [hcommand] at hcommand'
    cases hcommand'
    rw [hid] at hchannel
    change (w.channels.modify _ _).lookup _ = _ at hchannel
    rw [ChannelsTable.lookup_modify_self] at hchannel
    obtain ⟨channel', -, rfl⟩ := Option.map_eq_some_iff.1 hchannel
    rfl

theorem unschedule_termination {command command' : CommandCmrg}
    (hcommand : w.memory.cmrg ref = some command') (hid : command'.channelId = command.channelId) :
    Termination ref w ((unschedule ref command).run w).state := by
  unfold unschedule
  have hlocked : Leads (Serves ref) (locked .schedule (fun err => err) (do
      let err ← unscheduleTask command.task
      if err = .none then do
        modifyCommand ref fun command => { command with task := none }
        pure err
      else pure err)) :=
    serves_locked (.bind (unscheduleTask_serves _) fun err =>
      .ite (.bind (serves_modifyCommand fun _ => rfl) fun _ => .pure _) (.pure _))
  have hw := hlocked w
  rw [Logged.run_bind, Outcome.after_state, Logged.run_ite]
  split_ifs
  swap
  · exact .of_serves hw
  obtain ⟨found, hfound, hfid⟩ := hw.exists_alive hcommand
  refine .after_serves hw (forget_termination _ hfound (hfid.trans hid)) fun c hc => ?_
  exact hw.exists_alive hc

theorem terminateCommand_termination {command : CommandCmrg}
    (hcommand : w.memory.cmrg ref = some command) :
    Termination ref w ((terminateCommand ref command).run w).state := by
  have hstart : Leads (Serves ref) (do
      let _ ← finishChannel command.channelId currentTimeReference none
      dropXpcommand command.xpcmd) :=
    .bind ((ChannelCall.exec_steady .finish _ _ _).mono fun _ _ => serves_of_steady) fun _ =>
      dropXpcommand_serves _
  have hw := hstart w
  obtain ⟨found, hfound, hid⟩ := hw.exists_alive hcommand
  change Termination ref w (Logged.run (do
    let err ← (do
      let _ ← finishChannel command.channelId currentTimeReference none
      dropXpcommand command.xpcmd : M CmrgMemory ErrorCode)
    if err = .none then unschedule ref command else pure err) w).state
  rw [Logged.run_bind, Outcome.after_state, Logged.run_ite]
  split_ifs
  · exact .after_serves hw (unschedule_termination hfound hid) fun _ hc => hw.exists_alive hc
  · exact .of_serves hw

end Cmrg

/-- CMRG keeps track of its channels. -/
def cmrgTracking : Tracking (cmrgCommands (.inert CmrgMemory)) where
  valid := Cmrg.Fresh
  create_tracks command request version w := by
    by_cases hcommand : command = .cmrg
    swap
    · simp only [cmrgCommands, hcommand, ↓reduceIte]
      exact Std.Refl.refl w
    subst hcommand
    have hrun : ((cmrgCommands (.inert CmrgMemory)).create .cmrg request version).run w =
        (Cmrg.create request version).run w := rfl
    rw [hrun]
    refine ⟨?_, fun hfresh => (Cmrg.create_creation request version hfresh).fresh, ?_⟩
    · exact Cmrg.create_aged request version w
    · intro id command ref hfresh _ hrem
      by_cases hc : command = .cmrg
      · subst hc
        change (w.memory.cmrg ref).map _ = some id at hrem
        change (Option.map _ _) = some id
        rw [(Cmrg.create_creation request version hfresh).others ref ?_]
        · exact hrem
        · intro hnone
          rw [hnone] at hrem
          cases hrem
      · simp [cmrgCommands, hc, Commands.inert] at hrem
  create_remembers command request version w ref hfresh href := by
    by_cases hcommand : command = .cmrg
    · subst hcommand
      exact (Cmrg.create_creation request version hfresh).own ref href
    · simp [cmrgCommands, hcommand, Commands.inert] at href
  terminate_tracks command ref w := by
    by_cases hcommand : command = .cmrg
    swap
    · simp only [cmrgCommands, hcommand, ↓reduceIte]
      exact Std.Refl.refl w
    subst hcommand
    change Tracks _ _ w ((Cmrg.terminate ref).run w).state
    cases ref with
    | none => exact Std.Refl.refl w
    | some ref =>
      cases hfound : w.memory.cmrg ref with
      | none =>
        have hrun : ((Cmrg.terminate (some ref)).run w).state = w := by
          simp [Cmrg.terminate, Xpcommands.readMemory, hfound]
        rw [hrun]
        exact Std.Refl.refl w
      | some found =>
        have hrun : ((Cmrg.terminate (some ref)).run w).state =
            ((Cmrg.terminateCommand ref found).run w).state := by
          simp [Cmrg.terminate, Xpcommands.readMemory, hfound]
        rw [hrun]
        have h := Cmrg.terminateCommand_termination hfound
        refine ⟨h.aged, fun hfresh c hc => ?_, fun id command r _ hruns hrem => ?_⟩
        · have hne : c ≠ ref := by
            rintro rfl
            rw [hfresh c (Nat.le_trans h.next hc)] at hfound
            cases hfound
          rw [h.others c hne]
          exact hfresh c (Nat.le_trans h.next hc)
        · by_cases hc : command = .cmrg
          swap
          · simp [cmrgCommands, hc, Commands.inert] at hrem
          subst hc
          change (w.memory.cmrg r).map _ = some id at hrem
          change (Option.map _ _) = some id
          by_cases hr : r = ref
          swap
          · rw [h.others r hr]
            exact hrem
          subst hr
          rcases h.own with hown | hown
          · rw [hown]
            exact hrem
          · -- the command forgot a channel on which nothing runs any more
            obtain ⟨channel, hid, hend, -⟩ := hruns
            rw [hfound, Option.map_some, Option.some.injEq] at hrem
            rw [hown found channel hfound (by rw [hrem]; exact hid)] at hend
            cases hend

/-- So it is in a session in which CMRG runs. -/
theorem handleRequest_depth_cmrg {w : World CmrgMemory}
    (h : (sessionSystem cmrgTracking).Reachable w)
    (request : Request) (hschedule : ¬ w.refuses .schedule)
    (hsession : ¬ (w.holding .schedule).refuses .session) :
    ((Server.handleRequest (cmrgCommands (.inert CmrgMemory)) request).run w).state.depth =
      w.depth :=
  handleRequest_depth_of_reachable h request hschedule hsession

end XprcServer
