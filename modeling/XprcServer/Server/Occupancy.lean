import XprcServer.Channels.Bounds
import XprcServer.Server.Tracking

/-!
# Channels and the commands on them

A request that starts a command leaves a channel behind, and `handle_termination_request` uses the
command of a channel without a check.  So every channel in the table has to have a command that was
created, except for those of a connection that is closing: no further request of such a connection
is handled.

Maintenance (`maintain_server`) destroys the commands of channels whose end was requested and
removes these from the table.

`Contract` is what the server relies on of the commands.  An identifier out of the range of the
table makes `handle_request` read behind its end (`handleRequestAccess`).

* `channels_occupied` : if all requests name channels that precede `6l4`, no access fails, and in
  every state of a session the connection is closing, or every channel of the table has a command
  that was created and not destroyed, and only a command that was created keeps the identifier of
  its request busy;
* `channels_left_by_9999` : a request for another channel leaves the table.
-/

namespace XprcServer

open Lib
open Logged (Leads)

/-! ### Maintenance -/

namespace Server

variable {μ : Type}

/-- The part of `destroy_pending_channels` that destroys the command of a channel. -/
def destroyCommand (destroy : Command → Option ℕ → M μ ErrorCode)
    (channel : Channel) : M μ ErrorCode :=
  match channel.command with
  | none => pure .none
  | some command => destroy command channel.commandRef

/-- The inner loop of `destroy_pending_channels`, over the sub-table `i`; `false` says that the
function returns.  In a sub-table that was removed there is nothing left to find. -/
def destroyPendingIn (destroy : Command → Option ℕ → M μ ErrorCode) (i : Fin channelsNumSubtables) :
    List (Fin channelsSegment) → M μ Bool
  | [] => pure true
  | j :: rest => do
    match ← Logged.read fun w => (w.channels.subtables i).bind fun sub => sub.channels j with
    | none => destroyPendingIn destroy i rest
    | some channel =>
      if channel.destructionRequested then do
        let err ← destroyCommand destroy channel
        if err ≠ .none then pure false
        else if ← popChannel channel.id then destroyPendingIn destroy i rest
        else pure false
      else destroyPendingIn destroy i rest

/-- The outer loop of `destroy_pending_channels`. -/
def destroyPendingLoop (destroy : Command → Option ℕ → M μ ErrorCode) :
    List (Fin channelsNumSubtables) → M μ Unit
  | [] => pure ()
  | i :: rest => do
    if ← destroyPendingIn destroy i (List.finRange channelsSegment) then
      destroyPendingLoop destroy rest
    else pure ()

/-- `destroy_pending_channels` -/
def destroyPendingChannels (destroy : Command → Option ℕ → M μ ErrorCode) : M μ Unit :=
  destroyPendingLoop destroy (List.finRange channelsNumSubtables)

/-- What `maintain_server` does to a session. -/
def maintainSession (destroy : Command → Option ℕ → M μ ErrorCode) : M μ ErrorCode := do
  if ← lockSession then do
    destroyPendingChannels destroy
    unlockSession
    pure .none
  else pure .mutexFailed

end Server

/-! ### The contract of commands -/

/-- Between `w` and `w'` no channel was opened or got another command, and no command was
destroyed. -/
structure Preserves {μ : Type} (alive : μ → Command → ℕ → Prop) (w w' : World μ) : Prop
    extends w.Retains w' where
  alive : ∀ command ref, alive w.memory command ref → alive w'.memory command ref

/-- What the server relies on of the commands.  `alive` are the commands that were created
successfully and have not been destroyed; `destroy` is the function that destroys them. -/
structure Contract {μ : Type} (cmds : Commands μ)
    (destroy : Command → Option ℕ → M μ ErrorCode) where
  alive : μ → Command → ℕ → Prop
  create_preserves : ∀ command request version,
    Leads (Preserves alive) (cmds.create command request version)
  create_alive : ∀ command request version (w : World μ) ref,
    ((cmds.create command request version).run w).val = (.none, some ref) →
      alive ((cmds.create command request version).run w).state.memory command ref ∧
      ¬ alive w.memory command ref
  terminate_preserves : ∀ command ref, Leads (Preserves alive) (cmds.terminate command ref)
  destroy_retains : ∀ command ref, Leads World.Retains (destroy command ref)
  destroy_alive : ∀ command ref (w : World μ) command' ref', alive w.memory command' ref' →
    ((destroy command ref).run w).val ≠ .none ∨ (command', some ref') ≠ (command, ref) →
    alive ((destroy command ref).run w).state.memory command' ref'

section

variable {μ : Type} {alive : μ → Command → ℕ → Prop} {w w' : World μ}

theorem World.Settles.preserves (h : w.Settles w') : Preserves alive w w' :=
  ⟨h.toRetains, fun _ _ ha => h.memory ▸ ha⟩

instance : Std.Refl (Preserves alive) := ⟨fun w => (Std.Refl.refl w : w.Settles w).preserves⟩

instance : IsTrans (World μ) (Preserves alive) :=
  ⟨fun _ _ _ h h' => ⟨IsTrans.trans _ _ _ h.toRetains h'.toRetains,
    fun command ref ha => h'.alive command ref (h.alive command ref ha)⟩⟩

end

namespace Contract

variable {μ : Type} {cmds : Commands μ} {destroy : Command → Option ℕ → M μ ErrorCode}
  {C : Contract cmds destroy} {P : ChannelId → Prop} {w w' : World μ} {id : ChannelId}

/-- The channel has a command that is alive. -/
def Runs (C : Contract cmds destroy) (m : μ) (channel : Channel) : Prop :=
  ∃ command ref, channel.command = some command ∧ channel.commandRef = some ref ∧
    C.alive m command ref

/-- The channels with an identifier in `P` all have a command, each its own one. -/
structure SoundOn (C : Contract cmds destroy) (P : ChannelId → Prop) (w : World μ) : Prop where
  occupied : ∀ id channel, P id → w.channels.lookup id = some channel →
    channel.id = id ∧ C.Runs w.memory channel
  distinct : ∀ id id' channel channel', P id → P id' → w.channels.lookup id = some channel →
    w.channels.lookup id' = some channel' → channel.command = channel'.command →
    channel.commandRef = channel'.commandRef → id = id'

/-- All channels have a command. -/
abbrev Sound (C : Contract cmds destroy) (w : World μ) : Prop := C.SoundOn (fun _ => True) w

/-- What runs on the channel `id` in `w'` was created since `w`. -/
def Started (C : Contract cmds destroy) (id : ChannelId) (w w' : World μ) : Prop :=
  ∀ channel, w'.channels.lookup id = some channel → channel.id = id ∧
    ∃ command ref, channel.command = some command ∧ channel.commandRef = some ref ∧
      C.alive w'.memory command ref ∧ ¬ C.alive w.memory command ref

theorem started_of_free (h : w'.channels.lookup id = none) : C.Started id w w' := by
  intro channel hid
  rw [h] at hid
  cases hid

theorem Started.of_memory {w₀ : World μ} (h : C.Started id w w') (hmemory : w.memory = w₀.memory) :
    C.Started id w₀ w' := by
  intro channel hid
  rw [← hmemory]
  exact h channel hid

theorem Started.settles {w'' : World μ} (h : C.Started id w w') (hw : w'.Settles w'') :
    C.Started id w w'' := by
  intro channel'' hid''
  obtain ⟨channel', hid', hkey, hcommand, href, -⟩ := hw.channels id channel'' hid''
  obtain ⟨hown, command, ref, hc, hr, halive, hdead⟩ := h channel' hid'
  rw [← hw.memory] at halive
  exact ⟨hkey.trans hown, command, ref, hcommand.trans hc, href.trans hr, halive, hdead⟩

/-- Where no channel is opened, what was free stays free. -/
theorem started_of_retains (hw : w.Retains w') (hfree : w.channels.lookup id = none) :
    C.Started id w w' := by
  intro channel' hid'
  obtain ⟨channel, hid, -⟩ := hw.channels id channel' hid'
  rw [hfree] at hid
  cases hid

theorem SoundOn.preserves (h : C.SoundOn P w) (hw : Preserves C.alive w w') : C.SoundOn P w' := by
  constructor
  · intro id channel' hP hid'
    obtain ⟨channel, hid, hkey, hcommand, href, -⟩ := hw.channels id channel' hid'
    obtain ⟨hown, command, ref, hc, hr, halive⟩ := h.occupied id channel hP hid
    exact ⟨hkey.trans hown, command, ref, hcommand.trans hc, href.trans hr,
      hw.alive command ref halive⟩
  · intro id₁ id₂ channel₁' channel₂' hP₁ hP₂ hid₁' hid₂' hcommand href
    obtain ⟨channel₁, hid₁, -, hc₁, hr₁, -⟩ := hw.channels id₁ channel₁' hid₁'
    obtain ⟨channel₂, hid₂, -, hc₂, hr₂, -⟩ := hw.channels id₂ channel₂' hid₂'
    refine h.distinct id₁ id₂ channel₁ channel₂ hP₁ hP₂ hid₁ hid₂ ?_ ?_
    · rw [← hc₁, ← hc₂, hcommand]
    · rw [← hr₁, ← hr₂, href]

theorem SoundOn.settles (h : C.SoundOn P w) (hw : w.Settles w') : C.SoundOn P w' :=
  h.preserves hw.preserves

/-- Without a channel `id` the others are all there are. -/
theorem SoundOn.of_free (h : C.SoundOn (· ≠ id) w) (hfree : w.channels.lookup id = none) :
    C.Sound w := by
  have hne : ∀ id' channel, w.channels.lookup id' = some channel → id' ≠ id := by
    rintro _ channel hid rfl
    rw [hfree] at hid
    cases hid
  exact ⟨fun id' channel _ hid => h.occupied id' channel (hne id' channel hid) hid,
    fun id₁ id₂ channel₁ channel₂ _ _ hid₁ hid₂ => h.distinct id₁ id₂ channel₁ channel₂
      (hne id₁ channel₁ hid₁) (hne id₂ channel₂ hid₂) hid₁ hid₂⟩

/-- A command that was created since `w` is none of those that were there in `w`. -/
theorem SoundOn.of_started (h : C.SoundOn (· ≠ id) w')
    (hbefore : ∀ id' channel, id' ≠ id → w'.channels.lookup id' = some channel →
      C.Runs w.memory channel)
    (hstarted : C.Started id w w') : C.Sound w' := by
  -- the new command is not alive in `w`, all others are
  have hnew : ∀ id' channel channel', id' ≠ id → w'.channels.lookup id = some channel →
      w'.channels.lookup id' = some channel' → channel.command = channel'.command →
      channel.commandRef ≠ channel'.commandRef := by
    intro id' channel channel' hne hid hid' hcommand href
    obtain ⟨-, command, ref, hc, hr, -, hdead⟩ := hstarted channel hid
    obtain ⟨command', ref', hc', hr', halive⟩ := hbefore id' channel' hne hid'
    rw [hc, hc'] at hcommand
    rw [hr, hr'] at href
    cases hcommand
    cases href
    exact hdead halive
  constructor
  · intro id' channel _ hid'
    by_cases hne : id' = id
    · subst hne
      obtain ⟨hkey, command, ref, hc, hr, halive, -⟩ := hstarted channel hid'
      exact ⟨hkey, command, ref, hc, hr, halive⟩
    · exact h.occupied id' channel hne hid'
  · intro id₁ id₂ channel₁ channel₂ _ _ hid₁ hid₂ hcommand href
    by_cases hne₁ : id₁ = id
    · by_cases hne₂ : id₂ = id
      · rw [hne₁, hne₂]
      · subst hne₁
        exact absurd href (hnew id₂ channel₁ channel₂ hne₂ hid₁ hid₂ hcommand)
    · by_cases hne₂ : id₂ = id
      · subst hne₂
        exact absurd href.symm (hnew id₁ channel₂ channel₁ hne₁ hid₂ hid₁ hcommand.symm)
      · exact h.distinct id₁ id₂ channel₁ channel₂ hne₁ hne₂ hid₁ hid₂ hcommand href

/-! ### Requests -/

open Session

theorem dropChannel_sound (h : C.SoundOn (· ≠ id) w) (err : ErrorCode) :
    ((Server.dropChannel id err).run w).state.closing = true ∨
      (C.Sound ((Server.dropChannel id err).run w).state ∧
        ((Server.dropChannel id err).run w).state.channels.lookup id = none) := by
  unfold Server.dropChannel
  rw [Logged.run_ite]
  split
  · exact .inl rfl
  · obtain ⟨table', hrun, hgone, -⟩ := Server.popChannel_spec id w
    have hpopped := h.settles (Server.popChannel_settles id w)
    rw [Logged.run_bind, Outcome.after_state, Logged.run_ite]
    rw [hrun] at hpopped ⊢
    split
    · exact .inr ⟨hpopped.of_free hgone, hgone⟩
    · exact .inl rfl

/-- A channel that was put has no command yet. -/
theorem putChannel_sound (h : C.Sound w) (id : ChannelId) :
    let r := (Server.putChannel ⟨id, .initial, false, none, none⟩).run w
    r.state.memory = w.memory ∧
      (r.val = false → C.Sound r.state ∧ ∀ id', r.state.channels.lookup id' =
        w.channels.lookup id') ∧
      (r.val = true → C.SoundOn (· ≠ id) r.state ∧
        r.state.channels.lookup id = some ⟨id, .initial, false, none, none⟩) := by
  intro r
  obtain ⟨stored, table', hrun, hresult⟩ :=
    Server.putChannel_spec ⟨id, .initial, false, none, none⟩ w
  simp only [r, hrun]
  refine ⟨rfl, fun hno => ?_, fun hstored => ?_⟩
  · rcases hresult with ⟨hyes, -⟩ | ⟨-, hkept⟩
    · rw [hno] at hyes
      cases hyes
    · exact ⟨h.settles ⟨.of_lookup hkept fun hc => hc, rfl⟩, hkept⟩
  · rcases hresult with ⟨-, hput, hkept⟩ | ⟨hno, -⟩
    · refine ⟨⟨fun id' channel hne hid => ?_,
        fun id₁ id₂ channel₁ channel₂ hne₁ hne₂ hid₁ hid₂ => ?_⟩, hput⟩
      · change table'.lookup id' = some channel at hid
        rw [hkept id' hne] at hid
        exact h.occupied id' channel trivial hid
      · change table'.lookup id₁ = some channel₁ at hid₁
        change table'.lookup id₂ = some channel₂ at hid₂
        rw [hkept id₁ hne₁] at hid₁
        rw [hkept id₂ hne₂] at hid₂
        exact h.distinct id₁ id₂ channel₁ channel₂ trivial trivial hid₁ hid₂
    · rw [hstored] at hno
      cases hno

/-- Changing the channel `id` in place leaves the others alone. -/
theorem SoundOn.modify (h : C.SoundOn (· ≠ id) w) (f : Channel → Channel) :
    C.SoundOn (· ≠ id) { w with channels := w.channels.modify id f } := by
  refine ⟨fun id' channel hne hid => ?_, fun id₁ id₂ channel₁ channel₂ hne₁ hne₂ hid₁ hid₂ => ?_⟩
  · rw [ChannelsTable.lookup_modify_of_ne hne] at hid
    exact h.occupied id' channel hne hid
  · rw [ChannelsTable.lookup_modify_of_ne hne₁] at hid₁
    rw [ChannelsTable.lookup_modify_of_ne hne₂] at hid₂
    exact h.distinct id₁ id₂ channel₁ channel₂ hne₁ hne₂ hid₁ hid₂

/-- The others are not affected by the creation of a command.  If it succeeds with a reference, the
command is a new one. -/
theorem createCommand_sound {request : Request} {channel : Channel}
    (h : C.SoundOn (· ≠ request.channelId) w)
    (hid : w.channels.lookup request.channelId = some channel)
    (hkey : channel.id = request.channelId) :
    let r := (Server.createCommand cmds request).run w
    C.SoundOn (· ≠ request.channelId) r.state ∧
      (r.val = .none → ∀ channel', r.state.channels.lookup request.channelId = some channel' →
        channel'.commandRef ≠ none → C.Sound r.state ∧ C.Started request.channelId w r.state) := by
  intro r
  simp only [r]
  unfold Server.createCommand
  cases Command.ofName request.commandName with
  | none => exact ⟨h, fun himpossible => nomatch himpossible⟩
  | some command =>
    dsimp only
    rw [Logged.run_bind, Outcome.after_state, Outcome.after_val]
    set w₁ := ((modifyChannel request.channelId fun channel =>
      { channel with command := some command } : M μ Unit).run w).state with hw₁
    have hid₁ : w₁.channels.lookup request.channelId =
        some { channel with command := some command } := by
      rw [hw₁]
      change (w.channels.modify _ _).lookup _ = _
      rw [ChannelsTable.lookup_modify_self, hid]
      rfl
    have h₁ : C.SoundOn (· ≠ request.channelId) w₁ := h.modify _
    have hconfig : w₁.Settles ((Server.getCommandConfiguration command).run w₁).state :=
      locked_leads (fun _ _ hw => hw.settles) (.read _) w₁
    rw [Logged.run_bind, Outcome.after_state, Outcome.after_val]
    set w₂ := ((Server.getCommandConfiguration command).run w₁).state
    have h₂ := h₁.settles hconfig
    cases ((Server.getCommandConfiguration command).run w₁).val with
    | none => exact ⟨h₂, fun himpossible => nomatch himpossible⟩
    | some config =>
      have hcreate := C.create_preserves command request config.version w₂
      have halive := C.create_alive command request config.version w₂
      dsimp only
      rw [Logged.run_bind, Outcome.after_state, Outcome.after_val]
      set r₃ := (cmds.create command request config.version).run w₂
      have h₃ := h₂.preserves hcreate
      refine ⟨h₃.modify _, fun hnone channel' hid' href => ?_⟩
      have hretains : w₁.Retains r₃.state := IsTrans.trans _ _ _ hconfig.toRetains hcreate.toRetains
      have hmemory : w₂.memory = w.memory := hconfig.memory
      -- the creation returned a reference, and the command stored on the channel is the one created
      change (r₃.state.channels.modify _ _).lookup _ = _ at hid'
      rw [ChannelsTable.lookup_modify_self] at hid'
      obtain ⟨channel₃, hid₃, rfl⟩ := Option.map_eq_some_iff.1 hid'
      obtain ⟨ref, href⟩ := Option.ne_none_iff_exists'.1 href
      obtain ⟨hnow, hbefore⟩ := halive ref (Prod.ext hnone href)
      obtain ⟨channel₁, hid₁', hkey₁, hcommand₁, -⟩ := hretains.channels _ channel₃ hid₃
      rw [hid₁] at hid₁'
      cases hid₁'
      have hstarted : C.Started request.channelId w { r₃.state with
          channels := r₃.state.channels.modify request.channelId fun channel =>
            { channel with commandRef := r₃.val.2 } } := by
        intro channel' hid'
        rw [ChannelsTable.lookup_modify_self, hid₃] at hid'
        cases hid'
        rw [hmemory] at hbefore
        exact ⟨hkey₁.trans hkey, command, ref, hcommand₁, href, hnow, hbefore⟩
      refine ⟨(h₃.modify _).of_started (w := w) ?_ hstarted, hstarted⟩
      intro id' channel' hne hid'
      rw [ChannelsTable.lookup_modify_of_ne hne] at hid'
      obtain ⟨channel₁, hid₁', -, hc, hr, -⟩ := hretains.channels id' channel' hid'
      change (w.channels.modify _ _).lookup _ = _ at hid₁'
      rw [ChannelsTable.lookup_modify_of_ne hne] at hid₁'
      obtain ⟨-, command', ref', hc', hr', halive'⟩ := h.occupied id' channel₁ hne hid₁'
      exact ⟨command', ref', hc.trans hc', hr.trans hr', halive'⟩

/-- A request for a command that was not refused leaves the connection closing, or the channel free,
or a new command on it. -/
theorem handleCommandRequest_sound (h : C.Sound w) (request : Request) :
    let w' := ((Server.handleCommandRequest cmds request).run w).state
    w'.closing = true ∨ (C.Sound w' ∧
      (w.channels.lookup request.channelId = none → C.Started request.channelId w w')) := by
  intro w'
  simp only [w']
  unfold Server.handleCommandRequest
  rw [Logged.run_bind, Session.run_getChannel, Outcome.after_nil]
  cases hbusy : w.channels.lookup request.channelId with
  | some channel => exact .inr ⟨h.settles (Server.sendTimestamped_settles _ w),
      fun hfree => nomatch hfree⟩
  | none =>
    refine Or.imp_right (fun hend => ⟨hend.1, fun _ => hend.2⟩)
      (b := C.Sound _ ∧ C.Started _ w _) ?_
    -- an error of the server changes nothing, so that the channel stays free
    have hrefused : ∀ {w₁ : World μ} (line : ℤ → List UInt8), C.Sound w₁ →
        w₁.channels.lookup request.channelId = none → w₁.memory = w.memory →
        C.Sound ((Server.sendTimestamped line).run w₁).state ∧
          C.Started request.channelId w ((Server.sendTimestamped line).run w₁).state := by
      intro w₁ line h₁ hfree hmemory
      have hsend := Server.sendTimestamped_settles line w₁
      exact ⟨h₁.settles hsend, (started_of_retains hsend.toRetains hfree).of_memory hmemory⟩
    -- what remains once the end of the channel was reported
    have hdrop : ∀ {w₁ : World μ} (call : ChannelCall) (text : Option (List UInt8)),
        C.SoundOn (· ≠ request.channelId) w₁ →
        let w₂ := ((do
          let err ← call.exec request.channelId currentTimeReference text
          Server.dropChannel request.channelId err : M μ Unit).run w₁).state
        w₂.closing = true ∨ (C.Sound w₂ ∧ C.Started request.channelId w w₂) := by
      intro w₁ call text h₁
      have hreported :=
        h₁.settles (call.exec_settles request.channelId currentTimeReference text w₁)
      rcases dropChannel_sound hreported
        ((call.exec request.channelId currentTimeReference text : M μ ErrorCode).run w₁).val with
        hclosing | ⟨hsound, hgone⟩
      · exact .inl hclosing
      · exact .inr ⟨hsound, started_of_free hgone⟩
    dsimp only
    rw [Logged.run_bind, Outcome.after_state, Logged.run_ite]
    have h₁ : C.Sound (Session.allocate.run w).state := h.settles (ask_settles _ w)
    have hfree₁ : (Session.allocate.run w).state.channels.lookup request.channelId = none := hbusy
    have hmemory₁ : (Session.allocate.run w).state.memory = w.memory := rfl
    set w₁ := (Session.allocate.run w).state
    split
    swap
    · exact .inr (hrefused _ h₁ hfree₁ hmemory₁)
    obtain ⟨hmemory₂, hno, hyes⟩ := putChannel_sound h₁ request.channelId
    rw [Logged.run_bind, Outcome.after_state, Logged.run_ite]
    split
    swap
    · rename_i hfailed
      obtain ⟨h₂, hkept⟩ := hno (by simpa using hfailed)
      exact .inr (hrefused _ h₂ ((hkept _).trans hfree₁) (hmemory₂.trans hmemory₁))
    rename_i hstored
    obtain ⟨h₂, hput⟩ := hyes hstored
    set w₂ := ((Server.putChannel ⟨request.channelId, .initial, false, none, none⟩).run w₁).state
    obtain ⟨h₃, hcreated⟩ := createCommand_sound h₂ hput rfl
    rw [Logged.run_bind, Outcome.after_state, Logged.run_ite]
    set r₃ := (Server.createCommand cmds request).run w₂
    split
    · exact hdrop .error _ h₃
    rename_i hok
    rw [Logged.run_bind, Session.run_getChannel, Outcome.after_nil]
    cases hfound : r₃.state.channels.lookup request.channelId with
    | none => exact .inr ⟨h₃.of_free hfound, started_of_free hfound⟩
    | some channel =>
      dsimp only
      rw [Logged.run_ite]
      split
      · exact hdrop .finish _ h₃
      · rename_i href
        obtain ⟨hsound, hstarted⟩ := hcreated (not_not.1 hok) channel hfound href
        exact .inr ⟨hsound, hstarted.of_memory (hmemory₂.trans hmemory₁)⟩

theorem handleTerminationRequest_preserves (request : Request) :
    Leads (Preserves C.alive) (Server.handleTerminationRequest cmds request) := by
  have hsend : ∀ line, Leads (Preserves C.alive) (Server.sendTimestamped line : M μ Unit) :=
    fun line =>
      (Server.sendTimestamped_settles line).mono fun _ _ => World.Settles.preserves
  refine .bind (.read _) fun channel => ?_
  cases channel with
  | none => exact hsend _
  | some channel =>
    refine .ite (hsend _) ?_
    cases channel.command with
    | none => exact .pure _
    | some command =>
      refine .bind (C.terminate_preserves command channel.commandRef) fun err => .ite ?_ (.pure _)
      exact Server.closeNetworkConnection_settles.mono fun _ _ => World.Settles.preserves

/-- A request leaves the connection closing, or all channels with a command.  A channel that was
free is free again afterwards unless a new command runs on it. -/
theorem handleRequest_sound (h : C.Sound w) (request : Request) :
    let w' := ((Server.handleRequest cmds request).run w).state
    w'.closing = true ∨ (C.Sound w' ∧
      (w.channels.lookup request.channelId = none → C.Started request.channelId w w')) := by
  intro w'
  simp only [w']
  unfold Server.handleRequest
  rw [Logged.run_bind, Outcome.after_state, Logged.run_ite]
  have hlock₁ := lockFlagged_settles .schedule w
  have h₁ : C.Sound (lockSchedule.run w).state := h.settles hlock₁
  set w₁ := (lockSchedule.run w).state
  split
  · exact .inl rfl
  rw [Logged.run_bind, Outcome.after_state, Logged.run_ite]
  have hlock₂ : w₁.Settles (lockSession.run w₁).state := lockFlagged_settles .session w₁
  have hlocked : w.Settles (lockSession.run w₁).state := IsTrans.trans _ _ _ hlock₁ hlock₂
  set w₂ := (lockSession.run w₁).state
  have h₂ : C.Sound w₂ := h.settles hlocked
  split
  swap
  · exact .inl rfl
  -- both locks are held, and released afterwards
  have hfree₂ : w.channels.lookup request.channelId = none →
      w₂.channels.lookup request.channelId = none := by
    intro hfree
    cases hid : w₂.channels.lookup request.channelId with
    | none => rfl
    | some channel =>
      obtain ⟨channel', hid', -⟩ := hlocked.channels _ channel hid
      rw [hfree] at hid'
      cases hid'
  have hhandled : let w₃ := ((Server.handleLocked cmds request).run w₂).state
      w₃.closing = true ∨ (C.Sound w₃ ∧
        (w₂.channels.lookup request.channelId = none → C.Started request.channelId w₂ w₃)) := by
    intro w₃
    simp only [w₃]
    unfold Server.handleLocked
    rw [Logged.run_ite]
    split
    · have hpreserves := handleTerminationRequest_preserves (C := C) request w₂
      exact .inr ⟨h₂.preserves hpreserves, started_of_retains hpreserves.toRetains⟩
    · exact handleCommandRequest_sound h₂ request
  rw [Logged.run_bind, Outcome.after_state]
  set w₃ := ((Server.handleLocked cmds request).run w₂).state
  have hunlock : w₃.Settles ((do unlockSession; unlockSchedule : M μ Unit).run w₃).state :=
    IsTrans.trans _ _ _ (mtxUnlock_settles .session w₃) (mtxUnlock_settles .schedule _)
  rcases hhandled with hclosing | ⟨hsound, hstarted⟩
  · exact .inl (hunlock.closing hclosing)
  · exact .inr ⟨hsound.settles hunlock, fun hfree =>
      ((hstarted (hfree₂ hfree)).settles hunlock).of_memory hlocked.memory⟩

/-! ### Maintenance keeps the commands of the channels -/

/-- Once the command of a channel is destroyed and the channel is popped, the others are as
before. -/
theorem destroyed_sound {channel : Channel} {command : Command} {ref : ℕ} (h : C.Sound w)
    (hid : w.channels.lookup id = some channel) (hcommand : channel.command = some command)
    (href : channel.commandRef = some ref) :
    C.SoundOn (· ≠ id) ((destroy command (some ref)).run w).state := by
  have hretains := C.destroy_retains command (some ref) w
  constructor
  · intro id' channel₁ hne hid₁
    obtain ⟨channel', hid', hkey, hc, hr, -⟩ := hretains.channels id' channel₁ hid₁
    obtain ⟨hown, command', ref', hc', hr', halive⟩ := h.occupied id' channel' trivial hid'
    refine ⟨hkey.trans hown, command', ref', hc.trans hc', hr.trans hr', ?_⟩
    refine C.destroy_alive command (some ref) w command' ref' halive (.inr fun heq => hne ?_)
    -- otherwise the two channels would have the same command
    obtain ⟨rfl, hsame⟩ := Prod.mk.inj heq
    refine h.distinct id' id channel' channel trivial trivial hid' hid ?_ ?_
    · rw [hc', hcommand]
    · rw [hr', hsame, href]
  · intro id₁ id₂ channel₁ channel₂ _ _ hid₁ hid₂ hcommand href
    obtain ⟨channel₁', hid₁', -, hc₁, hr₁, -⟩ := hretains.channels id₁ channel₁ hid₁
    obtain ⟨channel₂', hid₂', -, hc₂, hr₂, -⟩ := hretains.channels id₂ channel₂ hid₂
    refine h.distinct id₁ id₂ channel₁' channel₂' trivial trivial hid₁' hid₂' ?_ ?_
    · rw [← hc₁, ← hc₂, hcommand]
    · rw [← hr₁, ← hr₂, href]

theorem destroyPendingIn_sound (h : C.Sound w) (i : Fin channelsNumSubtables)
    (js : List (Fin channelsSegment)) :
    C.Sound ((Server.destroyPendingIn destroy i js).run w).state := by
  induction js generalizing w with
  | nil => exact h
  | cons j rest ih =>
    unfold Server.destroyPendingIn
    rw [Logged.run_bind, Logged.run_read, Outcome.after_nil]
    cases hread : ((w.channels.subtables i).bind fun sub => sub.channels j) with
    | none => exact ih h
    | some channel =>
      dsimp only
      rw [Logged.run_ite]
      split
      swap
      · exact ih h
      obtain ⟨id, hplace⟩ := ChannelsTable.exists_id i j
      have hid : w.channels.lookup id = some channel := (hplace w.channels).symm.trans hread
      obtain ⟨hkey, command, ref, hcommand, href, halive⟩ := h.occupied id channel trivial hid
      have hdestroy : Server.destroyCommand destroy channel = destroy command (some ref) := by
        rw [Server.destroyCommand, hcommand, href]
      rw [hdestroy, hkey, Logged.run_bind, Outcome.after_state, Logged.run_ite]
      split
      · -- the command could not be destroyed: it stays with its channel
        rename_i hfailed
        exact h.preserves ⟨C.destroy_retains command (some ref) w, fun command' ref' halive' =>
          C.destroy_alive command (some ref) w command' ref' halive' (.inl hfailed)⟩
      · have hothers := destroyed_sound h hid hcommand href
        obtain ⟨table', hrun, hgone, -⟩ := Server.popChannel_spec id
          ((destroy command (some ref)).run w).state
        have hpopped := hothers.settles (Server.popChannel_settles id _)
        rw [Logged.run_bind, Outcome.after_state, Logged.run_ite]
        rw [hrun] at hpopped ⊢
        split
        · exact ih (hpopped.of_free hgone)
        · exact hpopped.of_free hgone

theorem destroyPendingIn_retains (C : Contract cmds destroy) (i : Fin channelsNumSubtables)
    (js : List (Fin channelsSegment)) :
    Leads World.Retains (Server.destroyPendingIn destroy i js) := by
  induction js with
  | nil => exact .pure _
  | cons j rest ih =>
    refine .bind (.read _) fun channel => ?_
    cases channel with
    | none => exact ih
    | some channel =>
      refine .ite (.bind ?_ fun err => .ite (.pure _) (.bind ?_ fun popped => .ite ih (.pure _))) ih
      · unfold Server.destroyCommand
        cases channel.command with
        | none => exact .pure _
        | some command => exact C.destroy_retains command _
      · exact (Server.popChannel_settles _).mono fun _ _ hw => hw.toRetains

theorem destroyPendingLoop_sound (h : C.Sound w) (is : List (Fin channelsNumSubtables)) :
    C.Sound ((Server.destroyPendingLoop destroy is).run w).state := by
  induction is generalizing w with
  | nil => exact h
  | cons i rest ih =>
    unfold Server.destroyPendingLoop
    rw [Logged.run_bind, Outcome.after_state, Logged.run_ite]
    have hsound := destroyPendingIn_sound h i (List.finRange channelsSegment)
    split
    · exact ih hsound
    · exact hsound

theorem destroyPendingLoop_retains (C : Contract cmds destroy)
    (is : List (Fin channelsNumSubtables)) :
    Leads World.Retains (Server.destroyPendingLoop destroy is) := by
  induction is with
  | nil => exact .pure _
  | cons i rest ih => exact .bind (destroyPendingIn_retains C i _) fun _ => .ite ih (.pure _)

/-- Maintenance destroys no command that a channel still has. -/
theorem maintainSession_sound (h : C.Sound w) :
    C.Sound ((Server.maintainSession destroy).run w).state := by
  unfold Server.maintainSession
  have hlock : w.Settles (lockSession.run w).state := lockFlagged_settles .session w
  rw [Logged.run_bind, Outcome.after_state, Logged.run_ite]
  split
  · have hunlock : Leads World.Settles (do unlockSession; pure .none : M μ ErrorCode) :=
      .bind (mtxUnlock_settles .session) fun _ => .pure _
    rw [Logged.run_bind, Outcome.after_state]
    exact SoundOn.settles (destroyPendingLoop_sound (h.settles hlock) _) (hunlock _)
  · exact h.settles hlock

theorem maintainSession_closing (C : Contract cmds destroy) (h : w.closing = true) :
    ((Server.maintainSession destroy).run w).state.closing = true := by
  have hretains : Leads World.Retains (Server.maintainSession destroy) := by
    have hlock : Leads World.Settles (lockSession : M μ Bool) :=
      .bind (lockFlagged_settles .session) fun _ => .pure _
    refine .bind (hlock.mono fun _ _ hw => hw.toRetains) fun _ => .ite ?_ (.pure _)
    refine .bind (destroyPendingLoop_retains C _) fun _ => .bind ?_ fun _ => .pure _
    exact (mtxUnlock_settles .session).mono fun _ _ hw => hw.toRetains
  exact (hretains w).closing h

end Contract

/-! ### Maintenance frees the channels -/

namespace Server

variable {μ : Type} {destroy : Command → Option ℕ → M μ ErrorCode} {w : World μ} {id : ChannelId}

/-- Destroying a command succeeds, and does nothing to the channels. -/
def Destroys (destroy : Command → Option ℕ → M μ ErrorCode) : Prop :=
  ∀ command ref w, ((destroy command (some ref)).run w).val = .none ∧
    ((destroy command (some ref)).run w).state.channels = w.channels

/-- Channels are found under their own identifiers, and they have a command reference. -/
def Filed (table : ChannelsTable) : Prop :=
  ∀ id channel, table.lookup id = some channel → channel.id = id ∧ channel.commandRef ≠ none

/-- Every channel of the second table is one of the first. -/
def Shrinks (table table' : ChannelsTable) : Prop :=
  ∀ id channel, table'.lookup id = some channel → table.lookup id = some channel

theorem Filed.shrinks {table table' : ChannelsTable} (h : Filed table) (hs : Shrinks table table') :
    Filed table' :=
  fun id channel hid => h id channel (hs id channel hid)

theorem destroyCommand_run (hdestroy : Destroys destroy) {channel : Channel}
    (href : channel.commandRef ≠ none) :
    ((destroyCommand destroy channel).run w).val = .none ∧
      ((destroyCommand destroy channel).run w).state.channels = w.channels := by
  obtain ⟨ref, href⟩ := Option.ne_none_iff_exists'.1 href
  unfold destroyCommand
  cases channel.command with
  | none => exact ⟨rfl, rfl⟩
  | some command =>
    dsimp only
    rw [href]
    exact hdestroy command ref w

/-- The inner loop leaves no channel whose end was requested in the places it has visited. -/
theorem destroyPendingIn_frees (hdestroy : Destroys destroy) (h : Filed w.channels)
    (i : Fin channelsNumSubtables) (js : List (Fin channelsSegment)) :
    ((destroyPendingIn destroy i js).run w).val = true ∧
      Shrinks w.channels ((destroyPendingIn destroy i js).run w).state.channels ∧
      ∀ j ∈ js, ∀ channel,
        ((((destroyPendingIn destroy i js).run w).state.channels.subtables i).bind
        fun sub => sub.channels j) = some channel → channel.destructionRequested = false := by
  induction js generalizing w with
  | nil => exact ⟨rfl, fun _ _ hid => hid, fun _ hj => nomatch hj⟩
  | cons j rest ih =>
    obtain ⟨id, hplace⟩ := ChannelsTable.exists_id i j
    unfold destroyPendingIn
    rw [Logged.run_bind, Logged.run_read, Outcome.after_nil, hplace]
    -- the place was visited: what is left there was not to be destroyed
    have hvisited : ∀ w', Filed w'.channels → Shrinks w.channels w'.channels →
        (∀ channel, w'.channels.lookup id = some channel → channel.destructionRequested = false) →
        ((destroyPendingIn destroy i rest).run w').val = true ∧
          Shrinks w.channels ((destroyPendingIn destroy i rest).run w').state.channels ∧
          ∀ j' ∈ j :: rest, ∀ channel,
            ((((destroyPendingIn destroy i rest).run w').state.channels.subtables i).bind
              fun sub => sub.channels j') = some channel →
                channel.destructionRequested = false := by
      intro w' hfiled hshrinks hdone
      obtain ⟨htrue, hrest, hfree⟩ := ih hfiled
      refine ⟨htrue, fun id' channel hid => hshrinks id' channel (hrest id' channel hid), ?_⟩
      intro j' hj' channel hchannel
      rcases List.mem_cons.1 hj' with rfl | hmem
      · rw [hplace] at hchannel
        exact hdone channel (hrest id channel hchannel)
      · exact hfree j' hmem channel hchannel
    cases hid : w.channels.lookup id with
    | none =>
      refine hvisited w h (fun _ _ h => h) fun channel hchannel => ?_
      rw [hid] at hchannel
      cases hchannel
    | some channel =>
      dsimp only
      rw [Logged.run_ite]
      split
      swap
      · rename_i hkept
        refine hvisited w h (fun _ _ h => h) fun channel' hchannel' => ?_
        rw [hid] at hchannel'
        cases hchannel'
        exact Bool.eq_false_iff.2 hkept
      · obtain ⟨hkey, href⟩ := h id channel hid
        obtain ⟨hnone, hsame⟩ := @destroyCommand_run μ destroy w hdestroy channel href
        obtain ⟨table', hpop, hgone, hothers⟩ := popChannel_spec channel.id
          ((destroyCommand destroy channel).run w).state
        rw [hkey, hsame] at hpop hothers
        rw [hkey] at hgone
        have hshrinks : Shrinks w.channels table' := by
          intro id' channel' hid'
          by_cases hne : id' = id
          · rw [hne, hgone] at hid'
            cases hid'
          · rw [← hothers id' hne]
            exact hid'
        obtain ⟨htrue, hrest, hfree⟩ := hvisited
          { ((destroyCommand destroy channel).run w).state with channels := table' }
          (h.shrinks hshrinks) hshrinks fun channel' hchannel' => by
            rw [hgone] at hchannel'
            cases hchannel'
        simp only [Logged.run_bind, Outcome.after_state, Outcome.after_val, hnone, ne_eq,
          not_true_eq_false, ↓reduceIte, hkey, hpop, hid, Option.isSome_some]
        exact ⟨htrue, hrest, hfree⟩

theorem destroyPendingLoop_frees (hdestroy : Destroys destroy) (h : Filed w.channels)
    (is : List (Fin channelsNumSubtables)) :
    Shrinks w.channels ((destroyPendingLoop destroy is).run w).state.channels ∧
      ∀ i ∈ is, ∀ j channel,
        ((((destroyPendingLoop destroy is).run w).state.channels.subtables i).bind
        fun sub => sub.channels j) = some channel → channel.destructionRequested = false := by
  induction is generalizing w with
  | nil => exact ⟨fun _ _ hid => hid, fun _ hi => nomatch hi⟩
  | cons i rest ih =>
    obtain ⟨htrue, hshrinks, hfree⟩ := destroyPendingIn_frees hdestroy h i
      (List.finRange channelsSegment)
    obtain ⟨hrest, hothers⟩ := ih (h.shrinks hshrinks)
    unfold destroyPendingLoop
    rw [Logged.run_bind, Outcome.after_state, htrue, if_pos rfl]
    refine ⟨fun id channel hid => hshrinks id channel (hrest id channel hid), ?_⟩
    intro i' hi' j channel hchannel
    rcases List.mem_cons.1 hi' with rfl | hmem
    · -- later sub-tables do not bring a channel back
      obtain ⟨id, hplace⟩ := ChannelsTable.exists_id i' j
      rw [hplace] at hchannel
      exact hfree j (List.mem_finRange j) channel ((hplace _).trans (hrest id channel hchannel))
    · exact hothers i' hmem j channel hchannel

theorem destroyPendingChannels_frees (hdestroy : Destroys destroy) (h : Filed w.channels) :
    Shrinks w.channels ((destroyPendingChannels destroy).run w).state.channels ∧
      ∀ channel, ((destroyPendingChannels destroy).run w).state.channels.lookup id = some channel →
        channel.destructionRequested = false := by
  unfold destroyPendingChannels
  obtain ⟨hshrinks, hfree⟩ :=
    destroyPendingLoop_frees hdestroy h (List.finRange channelsNumSubtables)
  refine ⟨hshrinks, fun channel hid => ?_⟩
  -- the channel was found in one of the places that were visited
  obtain ⟨i, j, hplace⟩ := ChannelsTable.exists_place hid
  exact hfree i (List.mem_finRange i) j channel ((hplace _).trans hid)

/-- After maintenance has locked the session, the channels whose end was requested are gone. -/
theorem maintainSession_frees (hdestroy : Destroys destroy) (h : Filed w.channels)
    (hlock : ¬ w.refuses .session) {channel : Channel} (hid : w.channels.lookup id = some channel)
    (hend : channel.destructionRequested = true) :
    ((maintainSession destroy).run w).state.channels.lookup id = none := by
  obtain ⟨hshrinks, hfree⟩ := @destroyPendingChannels_frees μ destroy
    ((w.atTick (w.tick + 3)).apply (.lock .session)) id hdestroy h
  -- for any program, so that the loops over the whole table are not unfolded
  have hrun : ∀ p : M μ Unit, ((do
      if ← lockSession then do p; unlockSession; pure .none
      else pure .mutexFailed : M μ ErrorCode).run w).state.channels =
        (p.run ((w.atTick (w.tick + 3)).apply (.lock .session))).state.channels := by
    intro p
    simp [lockSession, unlockSession, lockFlagged_granted hlock]
  unfold maintainSession
  rw [hrun]
  cases hleft : ((destroyPendingChannels destroy).run
      ((w.atTick (w.tick + 3)).apply (.lock .session))).state.channels.lookup id with
  | none => rfl
  | some channel' =>
    have hsame : w.channels.lookup id = some channel' := hshrinks id channel' hleft
    obtain rfl : channel = channel' := Option.some.inj (hid.symm.trans hsame)
    exact absurd (hend.symm.trans (hfree channel hleft)) (by decide)

/-- A termination that succeeds does not close the connection. -/
theorem handleTerminationRequest_open {cmds : Commands μ} {request : Request} {channel : Channel}
    {command : Command} (hid : w.channels.lookup request.channelId = some channel)
    (hcommand : channel.command = some command) (hopen : channel.state ≠ .closed)
    (hend : channel.destructionRequested = false)
    (hterminate : ((cmds.terminate command channel.commandRef).run w).val = .none) :
    ((handleTerminationRequest cmds request).run w).state =
      ((cmds.terminate command channel.commandRef).run w).state := by
  unfold handleTerminationRequest
  rw [Logged.run_bind, Session.run_getChannel, Outcome.after_nil, hid]
  simp [hopen, hend, hcommand, hterminate]

end Server

/-! ### The life of a session under maintenance -/

/-- The state after `handle_request`.  Once both locks are taken, the channel is looked up in the
table, and for an identifier out of range there is no such place. -/
def Server.handleRequestAccess {μ : Type} (cmds : Commands μ) (request : Request) (w : World μ) :
    Access (World μ) :=
  if ¬ w.refuses .schedule ∧ ¬ (w.holding .schedule).refuses .session ∧
    ¬ InRange request.channelId then
    none
  else some ((Server.handleRequest cmds request).run w).state

theorem Server.handleRequestAccess_of_inRange {μ : Type} {cmds : Commands μ} {request : Request}
    {w : World μ} (h : InRange request.channelId) :
    Server.handleRequestAccess cmds request w =
      some ((Server.handleRequest cmds request).run w).state :=
  if_neg fun hout => hout.2.2 h

/-- What happens to a session: it gets a line, it is maintained, or other threads work on it. -/
inductive ServerAct where
  | line (alloc : ℕ → Bool) (line : ℕ → UInt8) (length : ℤ)
  | maintain
  | others

/-- A session from its start on; `none` if an access has failed.  The receive thread handles a line
only after it has seen that the connection is not closing; others may work on the session before the
locks are taken.  Other threads run and terminate commands, but they neither open channels nor
destroy commands. -/
def occupancySystem {μ : Type} {cmds : Commands μ} {destroy : Command → Option ℕ → M μ ErrorCode}
    (C : Contract cmds destroy) : System (Access (World μ)) ServerAct where
  init s := ∃ w, s = some w ∧ ∀ id, w.channels.lookup id = none
  next s a s' := ∃ w, s = some w ∧
    match a with
    | .line alloc line length => w.closing = false ∧
        ∃ request, parseRequest alloc (some line) length = .ok request ∧
          ∃ w₁, Preserves C.alive w w₁ ∧ s' = Server.handleRequestAccess cmds request w₁
    | .maintain => s' = some ((Server.maintainSession destroy).run w).state
    | .others => ∃ w', Preserves C.alive w w' ∧ s' = some w'

/-- Lines name a channel that precedes `6l4`. -/
def NamesPrecede {μ : Type} (_ : Access (World μ)) : ServerAct → Prop
  | .line _ line _ => PrecedesLimit line
  | _ => True

section

variable {μ : Type} {cmds : Commands μ} {destroy : Command → Option ℕ → M μ ErrorCode}
  {C : Contract cmds destroy} {s : Access (World μ)}

theorem sound_of_reachable (h : ((occupancySystem C).restrict NamesPrecede).Reachable s) :
    ∃ w, s = some w ∧ (w.closing = true ∨ C.Sound w) := by
  refine h.invariant (I := fun s => ∃ w, s = some w ∧ (w.closing = true ∨ C.Sound w)) ?_ ?_
  · rintro s ⟨w, rfl, hempty⟩
    refine ⟨w, rfl, .inr ⟨fun id channel _ hid => ?_, fun id id' channel channel' _ _ hid => ?_⟩⟩
    · rw [hempty id] at hid
      cases hid
    · rw [hempty id] at hid
      cases hid
  · rintro s (⟨alloc, line, length⟩ | _ | _) s' - ⟨w, rfl, hs⟩ ⟨hprecedes, w', hw', hn⟩
    all_goals obtain rfl : w = w' := Option.some.inj hw'
    · obtain ⟨hopen, request, hparse, w₁, hothers, rfl⟩ := hn
      obtain ⟨hid, hbad⟩ := channelId_of_parseRequest hparse
      have hrange : InRange request.channelId := by
        rw [hid]
        exact (inRange_iff_precedesLimit hbad).2 hprecedes
      rw [Server.handleRequestAccess_of_inRange hrange]
      have hsound : C.Sound w := hs.resolve_left (by rw [hopen]; decide)
      refine ⟨_, rfl, ?_⟩
      rcases Contract.handleRequest_sound (hsound.preserves hothers) request with
        hclosing | ⟨hend, -⟩
      · exact .inl hclosing
      · exact .inr hend
    · refine ⟨_, hn, ?_⟩
      rcases hs with hclosing | hsound
      · exact .inl (Contract.maintainSession_closing C hclosing)
      · exact .inr (Contract.maintainSession_sound hsound)
    · obtain ⟨w₁, hothers, rfl⟩ := hn
      refine ⟨w₁, rfl, ?_⟩
      rcases hs with hclosing | hsound
      · exact .inl (hothers.closing hclosing)
      · exact .inr (hsound.preserves hothers)

/-- **Channels have commands.**  In every run in which the lines name channels that precede `6l4` no
access fails, and in every state of a session between requests, the connection is closing or every
channel of the table has a command with a reference to one that was created successfully and has not
been destroyed.  So a request that is handled finds a command on every channel; and if its own
channel was free before, it is free afterwards unless the request has created a command. -/
theorem channels_occupied (h : ((occupancySystem C).restrict NamesPrecede).Reachable s) :
    ∃ w, s = some w ∧
      (w.closing = true ∨
        ∀ id channel, w.channels.lookup id = some channel → C.Runs w.memory channel) ∧
      (w.closing = false → ∀ w₁, Preserves C.alive w w₁ →
        ∀ request : Request, InRange request.channelId →
        ∃ w', Server.handleRequestAccess cmds request w₁ = some w' ∧
        (∀ channel, w₁.channels.lookup request.channelId = some channel →
          channel.command ≠ none ∧ channel.commandRef ≠ none) ∧
        (w₁.channels.lookup request.channelId = none → w'.closing = true ∨
          ∀ channel, w'.channels.lookup request.channelId = some channel →
            ∃ command ref, channel.command = some command ∧ channel.commandRef = some ref ∧
              C.alive w'.memory command ref ∧ ¬ C.alive w₁.memory command ref)) := by
  obtain ⟨w, rfl, hs⟩ := sound_of_reachable h
  refine ⟨w, rfl, hs.imp_right fun hsound id channel hid =>
    (hsound.occupied id channel trivial hid).2, fun hopen w₁ hothers request hrange => ?_⟩
  have hsound : C.Sound w₁ := (hs.resolve_left (by rw [hopen]; decide)).preserves hothers
  refine ⟨_, Server.handleRequestAccess_of_inRange hrange, fun channel hid => ?_, fun hfree => ?_⟩
  · obtain ⟨-, command, ref, hcommand, href, -⟩ := hsound.occupied _ channel trivial hid
    rw [hcommand, href]
    exact ⟨Option.some_ne_none command, Option.some_ne_none ref⟩
  · rcases Contract.handleRequest_sound hsound request with hclosing | ⟨-, hstarted⟩
    · exact .inl hclosing
    · exact .inr fun channel hid => (hstarted hfree channel hid).2

end

/-! ### Commands that only run -/

/-- The commands that were created: which command it is, and its channel. -/
structure PlainMemory where
  commands : ℕ → Option (Command × ChannelId)
  next : ℕ

/-- Commands that do nothing but wait for their end. -/
def Commands.plain : Commands PlainMemory where
  create command request _ := do
    let ref ← Logged.read fun w => w.memory.next
    Logged.update fun w => { w with
      memory := ⟨Function.update w.memory.commands ref (some (command, request.channelId)),
        ref + 1⟩ }
    pure (.none, some ref)
  terminate _ ref := do
    match ← Logged.read fun w => ref.bind w.memory.commands with
    | none => pure .unspecific
    | some (_, id) => do
      Session.modifyChannel id fun channel => { channel with destructionRequested := true }
      pure .none
  channelOf m _ ref := (m.commands ref).map Prod.snd
  create_tidy command request version w hw hid := by
    exact ⟨⟨rfl, fun _ => .nil _⟩, fun _ h => h⟩
  terminate_orderly command ref w hw hid := by
    cases hread : ref.bind w.memory.commands with
    | none =>
      refine ⟨?_, fun _ => ?_⟩
      · simp [hread]
      · simp [hread, Walk.nil]
    | some entry =>
      refine ⟨?_, fun _ => ?_⟩
      · simp [hread, Session.modifyChannel]
      · simp [hread, Session.modifyChannel, Walk.nil]

/-- A command is freed. -/
def plainDestroy (command : Command) (ref : Option ℕ) : M PlainMemory ErrorCode := do
  match ← Logged.read fun w => ref.bind w.memory.commands with
  | none => pure .unspecific
  | some (command', _) =>
    if command' = command then do
      Logged.update fun w => { w with
        memory := { w.memory with
          commands := fun ref' => if ref = some ref' then none else w.memory.commands ref' } }
      pure .none
    else pure .unspecific

/-- They keep to the contract. -/
def plainContract : Contract Commands.plain plainDestroy where
  alive m command ref := ref < m.next ∧ ∃ id, m.commands ref = some (command, id)
  create_preserves command request version w := by
    refine ⟨.of_lookup (fun _ => rfl) fun h => h, fun command' ref halive => ?_⟩
    obtain ⟨hlt, id, hentry⟩ := halive
    refine ⟨Nat.lt_succ_of_lt hlt, id, ?_⟩
    change Function.update w.memory.commands w.memory.next _ ref = _
    rw [Function.update_of_ne (Nat.ne_of_lt hlt)]
    exact hentry
  create_alive command request version w ref hval := by
    have href : w.memory.next = ref := Option.some.inj (congrArg Prod.snd hval)
    subst href
    refine ⟨⟨Nat.lt_succ_self _, request.channelId, ?_⟩, fun halive => Nat.lt_irrefl _ halive.1⟩
    change Function.update w.memory.commands w.memory.next _ _ = _
    rw [Function.update_self]
  terminate_preserves command ref := by
    refine .bind (.read _) fun entry => ?_
    cases entry with
    | none => exact .pure _
    | some entry =>
      refine .bind (.update fun w => ⟨⟨fun id channel' hid' => ?_, fun h => h⟩, fun _ _ h => h⟩)
        fun _ => .pure _
      by_cases hne : id = entry.2
      · subst hne
        rw [ChannelsTable.lookup_modify_self] at hid'
        obtain ⟨channel, hid, rfl⟩ := Option.map_eq_some_iff.1 hid'
        exact ⟨channel, hid, rfl, rfl, rfl, fun himpossible => nomatch himpossible⟩
      · rw [ChannelsTable.lookup_modify_of_ne hne] at hid'
        exact ⟨channel', hid', rfl, rfl, rfl, fun h => h⟩
  destroy_retains command ref := by
    refine .bind (.read _) fun entry => ?_
    cases entry with
    | none => exact .pure _
    | some entry =>
      refine .ite (.bind (.update fun w => ?_) fun _ => .pure _) (.pure _)
      exact .of_lookup (fun _ => rfl) fun h => h
  destroy_alive command ref w command' ref' halive hother := by
    obtain ⟨hlt, id, hentry⟩ := halive
    cases hread : ref.bind w.memory.commands with
    | none =>
      simp only [plainDestroy, Logged.run_bind, Logged.run_read, Outcome.after_nil, hread]
      exact ⟨hlt, id, hentry⟩
    | some entry =>
      simp only [plainDestroy, Logged.run_bind, Logged.run_read, Outcome.after_nil, hread,
        Logged.run_ite] at hother ⊢
      split at hother
      · rename_i hcommand
        rw [if_pos hcommand]
        have hne : ref ≠ some ref' := by
          rintro rfl
          rw [Option.bind_some, hentry] at hread
          cases hread
          exact hother.elim (fun hval => hval rfl)
            fun hpair => hpair (congrArg (·, some ref') hcommand)
        refine ⟨hlt, id, ?_⟩
        change (if ref = some ref' then none else w.memory.commands ref') = _
        rw [if_neg hne]
        exact hentry
      · rename_i hcommand
        rw [if_neg hcommand]
        exact ⟨hlt, id, hentry⟩

/-- A request starts a command on the channel `aaaa`. -/
theorem channels_occupied_aaaa :
    let w : World PlainMemory := World.idle ⟨fun _ => none, 0⟩
    let w' := ((Server.handleRequest .plain ⟨0, bytes "CMHD", [], []⟩).run w).state
    w'.closing = false ∧ (w'.channels.lookup 0).map Channel.commandRef = some (some 0) ∧
      ∀ id channel, w'.channels.lookup id = some channel →
        plainContract.Runs w'.memory channel := by
  intro w w'
  have h₀ : ((occupancySystem plainContract).restrict NamesPrecede).Reachable (some w) :=
    .start ⟨w, rfl, fun id => by simp [w, World.idle, ChannelsTable.lookup, ChannelsTable.empty]⟩
  have hparse : parseRequest (fun _ => true) (some (memoryOf "aaaa CMHD")) 9 =
      .ok ⟨0, bytes "CMHD", [], []⟩ := by decide +kernel
  have h₁ : ((occupancySystem plainContract).restrict NamesPrecede).Reachable (some w') :=
    h₀.allowed (.line (fun _ => true) (memoryOf "aaaa CMHD") 9)
      (show PrecedesLimit (memoryOf "aaaa CMHD") by decide)
      ⟨w, rfl, rfl, _, hparse, w, Std.Refl.refl w,
        (Server.handleRequestAccess_of_inRange (by decide)).symm⟩
  have hopen : w'.closing = false := by decide +kernel
  refine ⟨hopen, by decide +kernel, ?_⟩
  obtain ⟨w₂, hw₂, hoccupied, -⟩ := channels_occupied h₁
  obtain rfl : w' = w₂ := Option.some.inj hw₂
  exact hoccupied.resolve_left (by rw [hopen]; decide)

/-- The line `9999 TERM` is accepted, and looking up its channel leaves the table. -/
theorem channels_left_by_9999 : (occupancySystem plainContract).Reachable none := by
  have h₀ : (occupancySystem plainContract).Reachable (some (World.idle ⟨fun _ => none, 0⟩)) :=
    .start ⟨_, rfl, fun id => by simp [World.idle, ChannelsTable.lookup, ChannelsTable.empty]⟩
  have hparse : parseRequest (fun _ => true) (some (memoryOf "9999 TERM")) 9 =
      .ok ⟨16244605, bytes "TERM", [], []⟩ := by decide +kernel
  exact h₀.step (.line (fun _ => true) (memoryOf "9999 TERM") 9)
    ⟨_, rfl, rfl, _, hparse, _, Std.Refl.refl _, by decide +kernel⟩

end XprcServer
