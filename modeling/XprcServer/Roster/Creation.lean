import XprcServer.Roster.Proxies

/-!
# Commands that are started

A request opens a channel and starts a command on it.  Other commands have no part in that
(`Roster.Opens`), and the new one, at an address that nobody used, is in order from the start.

* `Cmrg.create_outcome` : `cmrg_create`, if it does not fail once the proxy is listed;
* `InOrder.opens` : a session to which a command was added is still in order;
* `opens_create`, `opens_complete`, `opens_createCmrg`, `opens_refuse` : the creations.
-/

namespace XprcServer

open Lib
open Logged (Leads)

namespace Cmrg

open Session X Xpcommands

variable {w w' w'' : World CmrgMemory} {ref : ℕ}

/-- The channels, but for their states, and the schedule are as before, and so are the channel and
the task of the command `ref`, unless it was freed. -/
structure Stages (ref : ℕ) (w w' : World CmrgMemory) : Prop where
  channels : w.channels.Resembles w'.channels
  queue : w'.memory.queue = w.memory.queue
  own : ∀ command', w'.memory.cmrg ref = some command' → ∃ command,
  w.memory.cmrg ref = some command ∧
    command'.channelId = command.channelId ∧ command'.task = command.task

instance : Std.Refl (Stages ref) :=
  ⟨fun _ => ⟨.refl, rfl, fun command hc => ⟨command, hc, rfl, rfl⟩⟩⟩

instance : IsTrans (World CmrgMemory) (Stages ref) where
  trans w w' w'' h h' := by
    refine ⟨h.channels.trans h'.channels, h'.queue.trans h.queue, fun command'' hc'' => ?_⟩
    obtain ⟨command', hc', hid', htask'⟩ := h'.own command'' hc''
    obtain ⟨command, hc, hid, htask⟩ := h.own command' hc'
    exact ⟨command, hc, hid'.trans hid, htask'.trans htask⟩

theorem stages_of_speaks (h : w.Speaks w') : Stages ref w w' :=
  ⟨h.channels, by rw [h.memory], fun command hc => ⟨command, by rwa [h.memory] at hc, rfl, rfl⟩⟩

/-- Memory other than that of the commands and the schedule -/
theorem stages_updateMemory {f : CmrgMemory → CmrgMemory} (hcmrg : ∀ m, (f m).cmrg = m.cmrg)
    (hqueue : ∀ m, (f m).queue = m.queue) : Leads (Stages ref) (updateMemory f) := by
  refine fun w => ⟨.refl, hqueue w.memory, fun command hc => ⟨command, ?_, rfl, rfl⟩⟩
  rw [← hc]
  exact (congrFun (hcmrg w.memory) ref).symm

theorem stages_modifyCommand {f : CommandCmrg → CommandCmrg}
    (hf : ∀ command, (f command).channelId = command.channelId ∧ (f command).task = command.task) :
    Leads (Stages ref) (modifyCommand ref f) := by
  refine fun w => ⟨.refl, rfl, fun command' hc' => ?_⟩
  change Function.update w.memory.cmrg ref ((w.memory.cmrg ref).map f) ref = some command' at hc'
  rw [Function.update_self] at hc'
  obtain ⟨command, hc, rfl⟩ := Option.map_eq_some_iff.1 hc'
  exact ⟨command, hc, hf command⟩

theorem stages_ask {α : Type} (f : Environment → ℕ → α) : Leads (Stages ref)
    (ask f : M CmrgMemory α) :=
  (ask_speaks f).mono fun _ _ => stages_of_speaks

theorem stages_fail (id : ChannelId) (text : String) : Leads (Stages ref) (fail ref id text) := by
  refine .bind (.bind ((ChannelCall.exec_speaks .error id _ _).mono fun _ _ => stages_of_speaks)
    fun _ => .pure _) fun _ => .bind (fun w => ⟨.refl, rfl, fun command' hc' => ?_⟩) fun _ =>
      .pure _
  change Function.update w.memory.cmrg ref none ref = some command' at hc'
  rw [Function.update_self] at hc'
  cases hc'

theorem stages_copyUnescapedString (text : Option (List UInt8)) :
    Leads (Stages ref) (copyUnescapedString text : M CmrgMemory (Option (List UInt8))) := by
  cases text with
  | none => exact .pure _
  | some text => exact .bind (stages_ask _) fun _ => .ite (.pure _) (.pure _)

theorem stages_createXpcommand (name description : List UInt8) (phase : XpcommandPhase)
    (propagate : XpcommandPropagation) (callbackRef : ℕ) :
    Leads (Stages ref) (createXpcommand name description phase propagate callbackRef) := by
  refine .bind (stages_ask _) fun _ => .ite ?_ (.pure _)
  refine .bind (stages_ask _) fun _ => .ite ?_ (.pure _)
  refine .bind (stages_ask _) fun _ => .ite (locked_leads (fun _ _ => stages_of_speaks) ?_)
    (.pure _)
  refine .bind (stages_ask _) fun _ => .ite (.bind ?_ fun _ => ?_) (.pure _)
  · exact .bind (.read _) fun _ =>
      .bind (stages_updateMemory (fun _ => rfl) fun _ => rfl) fun _ => .pure _
  · exact .bind (stages_updateMemory (fun _ => rfl) fun _ => rfl) fun _ => .pure _

theorem stages_prepareProxy (request : Request) : Leads (Stages ref)
    (prepareProxy ref request) := by
  have hfails : ∀ text,
      Leads (Stages ref) (do let _ ← fail ref request.channelId text; pure false) :=
    fun text => .bind (stages_fail _ _) fun _ => .pure _
  unfold prepareProxy
  cases parseMonitor (request.getOption "monitor" "all") with
  | none => exact hfails _
  | some monitor =>
    refine .bind (stages_modifyCommand fun _ => ⟨rfl, rfl⟩) fun _ => ?_
    cases parsePhase (request.getOption "phase" "before") with
    | none => exact hfails _
    | some phase =>
      cases parsePropagation (request.getOption "propagate" "false") with
      | none => exact hfails _
      | some propagate =>
        refine .bind (stages_copyUnescapedString _) fun name => ?_
        cases name with
        | none => exact hfails _
        | some name =>
          refine .bind (stages_copyUnescapedString _) fun description => ?_
          cases description with
          | none => exact hfails _
          | some description =>
            refine .ite (hfails _) (.bind (stages_createXpcommand _ _ _ _ _) fun proxy => ?_)
            cases proxy with
            | none => exact hfails _
            | some proxy => exact .bind (stages_modifyCommand fun _ => ⟨rfl, rfl⟩) fun _ => .pure _

/-- A creation that failed has left nothing behind. -/
structure Fails (w w' : World CmrgMemory) : Prop where
  channels : w.channels.Resembles w'.channels
  queue : w'.memory.queue = w.memory.queue
  xpcommands : w'.memory.xpcommands = w.memory.xpcommands
  cmrg : w'.memory.cmrg = w.memory.cmrg

/-- A command with the proxy `a` and the task `t` was created for the channel `id`, at the next
address. -/
structure Starts (id : ChannelId) (a t : ℕ) (w w' : World CmrgMemory) : Prop where
  channels : w.channels.Resembles w'.channels
  queue : w'.memory.queue = w.memory.queue ++ [t]
  proxy : w.memory.next < a
  task : w.memory.next < t
  next : w.memory.next < w'.memory.next
  xpcommands : ∃ found, found.state = .created ∧ found.callback = some w.memory.next ∧
    w'.memory.xpcommands = Function.update w.memory.xpcommands a (some found)
  others : ∀ c, c ≠ w.memory.next → w'.memory.cmrg c = w.memory.cmrg c
  own : (w'.memory.cmrg w.memory.next).map CommandCmrg.ties =
    some ⟨id, some t, taskPhase, none, some a⟩
  known : (w'.memory.cmrg w.memory.next).bind CommandCmrg.task = some t

/-- **`cmrg_create`**, if it does not fail after its proxy was listed. -/
theorem create_outcome (request : Request) (version : ℕ)
    (hfresh : w.memory.cmrg w.memory.next = none) (hschedules : SchedulesTask request version w) :
    let r := (create request version).run w
    (r.val.2 = none ∧ Fails w r.state) ∨
      (r.val.2 = some w.memory.next ∧ ∃ a t, Starts request.channelId a t w r.state) := by
  intro r
  rcases create_cases request version w with ⟨hspeaks, hval⟩ | ⟨hallocates, hstate, hval⟩
  · exact .inl ⟨hval, hspeaks.channels, by rw [hspeaks.memory], by rw [hspeaks.memory],
      by rw [hspeaks.memory]⟩
  set ref := w.memory.next with href
  set w₀ := allocated request w with hw₀
  have halive : w₀.memory.cmrg ref = some ⟨request.channelId, none, ⟨false, false⟩,
      none, false, false⟩ :=
    Function.update_self _ _ _
  have hothers₀ : ∀ c, c ≠ ref → w₀.memory.cmrg c = w.memory.cmrg c := fun c hc =>
      Function.update_of_ne hc _ _
  have hstages : Stages ref w₀ ((prepareProxy ref request).run w₀).state :=
    stages_prepareProxy request w₀
  have hprepares : Prepares ref (prepareProxy ref request) := prepareProxy_prepares request
  rcases hprepares w₀ (by rw [halive]; rfl) with ⟨hfalse, hd⟩ | ⟨htrue, hl⟩
  · rcases (configure_splits request : Splits ref request.channelId _ _) w₀ with ⟨-,
      hv, hs⟩ | ⟨htrue, -⟩
    swap
    · rw [hfalse] at htrue
      cases htrue
    have hfinal : r.state = ((prepareProxy ref request).run w₀).state := hstate.trans hs
    refine .inl ⟨congrArg Prod.snd (hval.trans hv), ?_⟩
    rw [hfinal]
    refine ⟨hstages.channels, hstages.queue, hd.xpcommands, funext fun c => ?_⟩
    by_cases hc : c = ref
    · rw [hc, hd.gone, hfresh]
    · rw [hd.others c hc, hothers₀ c hc]
  · rcases (configure_splits request : Splits ref request.channelId _ _) w₀ with ⟨hfalse,
      -⟩ | ⟨-, hv, hs⟩
    · rw [htrue] at hfalse
      cases hfalse
    obtain ⟨hvtask, hctask, hmtask⟩ := @createTask_scheduled ref request.channelId _
      (hschedules hallocates htrue)
    obtain ⟨⟨a, found, hle, hlt, hcreated, hcallback, hx, -, hown⟩, hothers⟩ := hl
    have hmemory : r.state.memory = _ := (congrArg World.memory (hstate.trans hs)).trans hmtask
    have hchannels : r.state.channels = _ :=
      (congrArg World.channels (hstate.trans hs)).trans hctask
    -- what the command knows before its task is allocated
    obtain ⟨command', hcommand', hxpcmd⟩ := Option.bind_eq_some_iff.1 hown
    obtain ⟨command, hcommand, hid, -⟩ := hstages.own command' hcommand'
    obtain rfl := Option.some.inj (halive.symm.trans hcommand)
    have hfinal : r.state.memory.cmrg ref = some { command' with
        task := some ((prepareProxy ref request).run w₀).state.memory.next } := by
      rw [hmemory]
      dsimp only
      rw [Function.update_self, hcommand', Option.map_some]
    have hnext : ref < a := hle
    refine .inr ⟨congrArg Prod.snd (hval.trans (hv.trans hvtask)), a,
      ((prepareProxy ref request).run w₀).state.memory.next, ?_, ?_, hnext, hnext.trans hlt, ?_,
      ⟨found, hcreated, hcallback, ?_⟩, fun c hc => ?_, ?_, ?_⟩
    · rw [hchannels]
      exact hstages.channels
    · rw [hmemory]
      exact congrArg (· ++ _) hstages.queue
    · rw [hmemory]
      exact Nat.lt_succ_of_lt (hnext.trans hlt)
    · rw [hmemory]
      exact hx
    · rw [hmemory]
      dsimp only
      rw [Function.update_of_ne hc, hothers c hc, hothers₀ c hc]
    · rw [hfinal, Option.map_some]
      unfold CommandCmrg.ties
      rw [hid, hxpcmd]
    · rw [hfinal]
      rfl

end Cmrg

namespace Roster

variable {V : Type} {s s' : Roster V} {ref t : ℕ} {id : ChannelId} {new : Option ℕ}

/-- A request has opened the channel `id`, unless it was removed again, and allocated a command at
`new`, if any.  That is in order on the channel, or nothing refers to it. -/
structure Opens (id : ChannelId) (new : Option ℕ) (s s' : Roster V) : Prop where
  session : s'.session = s.session
  registry : s'.registry = s.registry
  free : s.port.channels.lookup id = none
  created : ∀ ref, ref ∈ s'.created ↔ new = some ref ∨ ref ∈ s.created
  fresh : ∀ ref, new = some ref → ref ∉ s.created
  others : ∀ id', id' ≠ id → (s'.port.channels.lookup id').map Channel.still =
    (s.port.channels.lookup id').map Channel.still
  keeps : ∀ ref ∈ s.created, Keeps ref s s'
  channel : ∀ channel, s'.port.channels.lookup id = some channel → channel.id = id ∧
    ∀ ref, channel.commandRef = some ref → new = some ref ∧ channel.command ≠ none ∧
      (channel.destructionRequested = false → s'.Rents ref id)
  clear : ∀ ref, new = some ref → (∀ channel, s'.port.channels.lookup id = some channel →
    channel.commandRef = some ref → channel.destructionRequested = true) → s'.Clear ref

/-- **A creation.** -/
theorem InOrder.opens (h : InOrder (fun _ => True) s) (ho : Opens id new s s') :
    InOrder (fun _ => True) s' := by
  -- a channel with another identifier was there before
  have hold : ∀ id' channel', id' ≠ id → s'.port.channels.lookup id' = some channel' →
      ∃ channel, s.port.channels.lookup id' = some channel ∧ channel'.still = channel.still := by
    intro id' channel' hne hid'
    have hmap := ho.others id' hne
    rw [hid', Option.map_some] at hmap
    obtain ⟨channel, hid, hstill⟩ := Option.map_eq_some_iff.1 hmap.symm
    exact ⟨channel, hid, hstill.symm⟩
  have hother : ∀ id' channel ref, s.port.channels.lookup id' = some channel →
      channel.commandRef = some ref → new ≠ some ref := fun id' channel ref hid href hnew =>
    ho.fresh ref hnew (h.known id' channel ref hid href).1
  constructor
  · intro id' channel' hid'
    by_cases hne : id' = id
    · subst hne
      exact (ho.channel channel' hid').1
    · obtain ⟨channel, hid, hstill⟩ := hold id' channel' hne hid'
      exact (Channel.mk.inj hstill).1.trans (h.named id' channel hid)
  · intro id' channel' ref hid' href
    rw [ho.created]
    by_cases hne : id' = id
    · subst hne
      obtain ⟨hnew, hcommand, -⟩ := (ho.channel channel' hid').2 ref href
      exact ⟨.inl hnew, hcommand⟩
    · obtain ⟨channel, hid, hstill⟩ := hold id' channel' hne hid'
      obtain ⟨-, -, -, hcommand, hsame⟩ := Channel.mk.inj hstill
      obtain ⟨hcreated, hknown⟩ := h.known id' channel ref hid (hsame ▸ href)
      exact ⟨.inr hcreated, hcommand ▸ hknown⟩
  · intro id₁ id₂ channel₁ channel₂ ref hid₁ hid₂ href₁ href₂
    by_cases hne₁ : id₁ = id
    · subst hne₁
      by_contra hne
      obtain ⟨hnew, -⟩ := (ho.channel channel₁ hid₁).2 ref href₁
      obtain ⟨channel, hid, hstill⟩ := hold id₂ channel₂ (Ne.symm hne) hid₂
      obtain ⟨-, -, -, -, hsame⟩ := Channel.mk.inj hstill
      exact hother id₂ channel ref hid (hsame ▸ href₂) hnew
    · obtain ⟨channel, hid, hstill⟩ := hold id₁ channel₁ hne₁ hid₁
      obtain ⟨-, -, -, -, hsame⟩ := Channel.mk.inj hstill
      by_cases hne₂ : id₂ = id
      · subst hne₂
        obtain ⟨hnew, -⟩ := (ho.channel channel₂ hid₂).2 ref href₂
        exact absurd hnew (hother id₁ channel ref hid (hsame ▸ href₁))
      · obtain ⟨channel', hid', hstill'⟩ := hold id₂ channel₂ hne₂ hid₂
        obtain ⟨-, -, -, -, hsame'⟩ := Channel.mk.inj hstill'
        exact h.distinct id₁ id₂ channel channel' ref hid hid' (hsame ▸ href₁) (hsame' ▸ href₂)
  · intro id' channel' ref _ hid' href hopen
    by_cases hne : id' = id
    · subst hne
      exact ((ho.channel channel' hid').2 ref href).2.2 hopen
    · obtain ⟨channel, hid, hstill⟩ := hold id' channel' hne hid'
      obtain ⟨-, -, hend, -, hsame⟩ := Channel.mk.inj hstill
      have hrents := h.tenants id' channel ref trivial hid (hsame ▸ href) (hend ▸ hopen)
      exact hrents.keeps (ho.keeps ref (h.known id' channel ref hid (hsame ▸ href)).1) ho.session
  · intro ref hcreated hended
    rcases (ho.created ref).1 hcreated with hnew | hcreated
    · exact ho.clear ref hnew fun channel hid href => hended id channel trivial hid href
    · refine (h.clear ref hcreated fun id' channel _ hid href => ?_).keeps (ho.keeps ref hcreated)
      have hne : id' ≠ id := by
        rintro rfl
        rw [ho.free] at hid
        cases hid
      have hmap := ho.others id' hne
      rw [hid, Option.map_some] at hmap
      obtain ⟨channel', hid', hstill⟩ := Option.map_eq_some_iff.1 hmap
      obtain ⟨-, -, hend, -, hsame⟩ := Channel.mk.inj hstill
      rw [← hend]
      exact hended id' channel' trivial hid' (hsame.trans href)
  · intro p hp hheld howner
    rw [ho.registry] at hp
    rw [ho.session] at howner
    obtain ⟨ref, href, hown⟩ := h.owned p hp hheld howner
    exact ⟨ref, (ho.created ref).2 (.inr href), hown⟩

/-! ### The new channel -/

/-- The channel that a request has put into the table, once its command is known. -/
theorem Puts.opened {channels channels' : ChannelsTable} (h : Puts channels id channels')
    (descriptor : Option Command) (commandRef : Option ℕ) :
    (Roster.opened channels' id descriptor commandRef).lookup id =
      some ⟨id, .initial, false, descriptor, commandRef⟩ ∧
    ∀ id', id' ≠ id → (Roster.opened channels' id descriptor commandRef).lookup id' =
      channels.lookup id' := by
  obtain ⟨alloc, hput⟩ := h.put
  have hresult : PutResult channels ⟨id, .initial, false, none, none⟩ true channels' := by
    by_cases hr : InRange id
    · exact putChannel_result hr hput
    · exact putChannel_result_of_not_inRange hr hput
  obtain ⟨-, hstored, hothers⟩ | ⟨hfalse, -⟩ := hresult
  swap
  · cases hfalse
  refine ⟨?_, fun id' hne => ?_⟩
  · rw [Roster.opened, ChannelsTable.lookup_modify_self, hstored]
    rfl
  · rw [Roster.opened, ChannelsTable.lookup_modify_of_ne hne]
    exact hothers id' hne

theorem opens_refuse {channels : ChannelsTable} (hput : Puts s.port.channels id channels)
    (descriptor : Option Command) :
    Opens id none s { s with port :=
      { s.port with channels := Roster.opened channels id descriptor none } } := by
  obtain ⟨hnew, hothers⟩ := hput.opened descriptor none
  refine ⟨rfl, rfl, hput.free, fun ref => by simp, (fun ref href => nomatch href),
    fun id' hne => congrArg _ (hothers id' hne), fun ref _ => ?_, fun channel hid => ?_,
    (fun ref href => nomatch href)⟩
  · exact (Keeps.refl ref s).aside s.created _
  · obtain rfl := Option.some.inj (hnew.symm.trans hid)
    exact ⟨rfl, fun ref href => nomatch href⟩

/-- Other commands have no part in that a command is enrolled. -/
theorem keeps_enroll {r : ℕ} (hr : r ≠ ref) (channels : ChannelsTable) (command : PortCommand V) :
    Keeps r s (s.enroll channels ref command) :=
  ⟨Function.update_of_ne hr _ _, rfl, fun _ => Iff.rfl, fun _ _ _ => rfl,
    fun _ p hp hheld => ⟨p, hp, hheld⟩, fun _ _ hp _ _ => hp, fun _ => Iff.rfl⟩

/-- Nor in that its task is scheduled. -/
theorem keeps_schedule {r : ℕ} (hr : r ≠ ref) (htask : s.references t = none)
    (phase : TaskSchedulePhase) :
    Keeps r s (s.schedule ref t phase) := by
  refine ⟨rfl, rfl, fun t' => ?_, fun phase' t' ht' => ?_, fun _ p hp hheld => ⟨p, hp, hheld⟩,
    fun _ _ hp _ _ => hp, fun _ => Iff.rfl⟩
  · change Function.update s.references t (some ref) t' = some r ↔ _
    by_cases ht' : t' = t
    · rw [ht', Function.update_self, htask, Option.some.injEq]
      exact iff_of_false (Ne.symm hr) (Option.some_ne_none r).symm
    · rw [Function.update_of_ne ht']
  · have hne : t' ≠ t := by
      rintro rfl
      rw [htask] at ht'
      cases ht'
    change (Function.update s.port.queues phase (s.port.queues phase ++ [t]) phase').count t' = _
    by_cases hphase : phase' = phase
    · rw [hphase, Function.update_self, List.count_append,
        List.count_eq_zero.2 fun hmem => hne (List.mem_singleton.1 hmem), Nat.add_zero]
    · rw [Function.update_of_ne hphase]

theorem Fresh.ne_of_created (h : s.Fresh ref) {r : ℕ} (hr : r ∈ s.created) : r ≠ ref := by
  rintro rfl
  exact h.created hr

theorem tenant_create (hfresh : s.Fresh ref) (htask : s.Fresh t) {command : PortCommand V}
    (channels : ChannelsTable) (hties : command.ties.task = some t ∧ command.ties.proxy = none)
    (hunregistered : command.Unregistered s.session) :
    ((s.enroll channels ref command).schedule ref t command.ties.phase).Tenant ref
      command.ties.channelId t command.ties := by
  set s' := (s.enroll channels ref command).schedule ref t command.ties.phase
  have hself : s'.commands ref = some command := Function.update_self _ _ _
  constructor
  · unfold Roster.ties
    rw [hself]
  · rfl
  · intro t'
    change Function.update s.references t (some ref) t' = some ref ↔ t' = t
    by_cases ht' : t' = t
    · rw [ht', Function.update_self]
      exact iff_of_true rfl rfl
    · rw [Function.update_of_ne ht']
      exact iff_of_false (hfresh.unreferenced t') ht'
  · refine .inl ⟨hties.1, ?_⟩
    change (Function.update s.port.queues _ (s.port.queues command.ties.phase ++ [t]) _).count t = 1
    rw [Function.update_self, List.count_append, List.count_eq_zero.2 (htask.unscheduled _),
      List.count_singleton_self]
  · intro phase hphase
    change t ∉ Function.update s.port.queues _ (s.port.queues command.ties.phase ++ [t]) phase
    rw [Function.update_of_ne hphase]
    exact htask.unscheduled phase
  · exact fun b p hp hheld => absurd hheld (hfresh.clear.proxies b p hp)
  · intro a ha
    rw [hties.2] at ha
    cases ha
  · intro a
    rw [command.ties_xpcmd]
    exact iff_of_false (hfresh.clear.xpcommands a) (Option.some_ne_none a).symm
  · intro found hfound
    obtain rfl := Option.some.inj (hself.symm.trans hfound)
    exact ⟨hunregistered.1, fun _ => hties.2⟩
  · exact fun hsome => absurd hfresh.cmrg hsome

theorem opens_create (hfresh : s.Fresh ref) (htask : s.Fresh t) {command : PortCommand V}
    {channels : ChannelsTable} (hput : Puts s.port.channels command.ties.channelId channels)
    (hties : command.ties.task = some t ∧ command.ties.proxy = none)
    (hunregistered : command.Unregistered s.session) :
    Opens command.ties.channelId (some ref) s
      ((s.enroll channels ref command).schedule ref t command.ties.phase) := by
  obtain ⟨hnew, hothers⟩ := hput.opened (some command.descriptor) (some ref)
  refine ⟨rfl, rfl, hput.free, fun r => ?_, fun r hr => ?_,
    fun id' hne => congrArg _ (hothers id' hne), fun r hr => ?_, fun channel hid => ?_,
      fun r hr hended => ?_⟩
  · change r ∈ ref :: s.created ↔ _
    rw [List.mem_cons, Option.some.injEq, eq_comm]
  · rw [← Option.some.inj hr]
    exact hfresh.created
  · have hne := hfresh.ne_of_created hr
    exact (keeps_enroll hne channels command).trans
      (keeps_schedule (s := s.enroll channels ref command) hne htask.task _)
  · obtain rfl := Option.some.inj (hnew.symm.trans hid)
    refine ⟨rfl, fun r hr => ⟨hr, Option.some_ne_none _, fun _ => ?_⟩⟩
    obtain rfl := Option.some.inj hr
    exact ⟨t, _, tenant_create hfresh htask channels hties hunregistered⟩
  · cases hended _ hnew hr

/-- A command that is complete at once is terminated by its creation: it requests the end of its
channel. -/
theorem opens_complete (hfresh : s.Fresh ref) {channels : ChannelsTable}
    (hput : Puts s.port.channels id channels) (fields : DrmuFields) (work : Work DrmuFields) :
    Opens id (some ref) s
      ((s.enroll channels ref (.drmu id none fields)).withDesk ref
        (((s.enroll channels ref (.drmu id none fields)).desk (.drmu id none fields)).ofDrmu
          (Drmu.completeWithoutSchedule .none work
            ⟨id, none, fields, (s.enroll channels ref (.drmu id none fields)).port⟩).2)) := by
  set s' := s.enroll channels ref (.drmu id none fields)
  obtain ⟨hnew, hothers⟩ := hput.opened (some .drmu) (some ref)
  set d := (Drmu.completeWithoutSchedule .none work ⟨id, none, fields, s'.port⟩).2
  have hchannels : d.port.channels = (opened channels id (some .drmu) (some ref)).modify id mark :=
    rfl
  have hmarked : d.port.channels.lookup id = some ⟨id, .initial, true, some .drmu, some ref⟩ := by
    rw [hchannels, ChannelsTable.lookup_modify_self, hnew]
    rfl
  refine ⟨rfl, rfl, hput.free, fun r => ?_, fun r hr => ?_, fun id' hne => ?_, fun r hr => ?_,
    fun channel hid => ?_, fun r hr _ => ?_⟩
  · change r ∈ ref :: s.created ↔ _
    rw [List.mem_cons, Option.some.injEq, eq_comm]
  · rw [← Option.some.inj hr]
    exact hfresh.created
  · change (d.port.channels.lookup id').map _ = _
    rw [hchannels, ChannelsTable.lookup_modify_of_ne hne, hothers id' hne]
  · have hne := hfresh.ne_of_created hr
    refine ⟨?_, rfl, fun _ => Iff.rfl, fun _ _ _ => rfl, fun _ p hp hheld => ⟨p, hp, hheld⟩,
      fun _ _ hp _ _ => hp, fun _ => Iff.rfl⟩
    exact (Function.update_of_ne hne _ _).trans (Function.update_of_ne hne _ _)
  · obtain rfl := Option.some.inj (hmarked.symm.trans hid)
    exact ⟨rfl, fun r hr => ⟨hr, Option.some_ne_none _, fun hopen => nomatch hopen⟩⟩
  · obtain rfl := Option.some.inj hr
    exact ⟨fun _ t _ => hfresh.unreferenced t, hfresh.clear.proxies, hfresh.clear.xpcommands⟩

section

variable {w w₀ : World CmrgMemory} {x : XpWorld} {a r : ℕ}

/-- Nobody has a part in a creation that failed. -/
theorem keeps_fails (hmemory : w₀.memory = (s.world w).memory) (h : Cmrg.Fails w₀ x.world) :
    Keeps r s (s.absorb x) where
  commands := rfl
  cmrg := by
    change (x.world.memory.cmrg r).map _ = _
    rw [h.cmrg, hmemory]
    rfl
  references _ := Iff.rfl
  queues phase _ _ :=
    absorb_count (congrArg (List.count _) (h.queue.trans (by rw [hmemory]; rfl))) phase
  held _ p' hp' hheld := ⟨p', hp', hheld⟩
  own _ _ hp _ _ := hp
  calls b := by
    rw [calls_iff, calls_iff]
    change Cmrg.calling x.world.memory b = _ ↔ _
    rw [Cmrg.calling, h.xpcommands, hmemory]
    rfl

/-- A CMRG command was created at the address of `s.memory.next`, with the task `t`. -/
def hireCmrg (s : Roster V) (x : XpWorld) (t : ℕ) : Roster V :=
  { s.absorb x with
    references := fun t' => if t = t' then some s.memory.next else s.references t' }

theorem hireCmrg_calling (hmemory : w₀.memory = (s.world w).memory)
    (h : Cmrg.Starts id a t w₀ x.world) (b : ℕ) :
    Cmrg.calling (s.hireCmrg x t).memory b =
      if b = a then some s.memory.next else Cmrg.calling s.memory b := by
  obtain ⟨found, hstate, hcallback, hx⟩ := h.xpcommands
  change (x.world.memory.xpcommands b).bind _ = _
  rw [hx, hmemory]
  split_ifs with hb
  · rw [hb, Function.update_self, Option.bind_some, Xpcommand.calling, if_pos (.inl hstate),
      hcallback, hmemory]
    rfl
  · rw [Function.update_of_ne hb]
    rfl

theorem keeps_hireCmrg (hmemory : w₀.memory = (s.world w).memory)
    (h : Cmrg.Starts id a t w₀ x.world)
    (hfresh : ∀ b, s.memory.next ≤ b → s.Fresh b)
    (hr : r ∈ s.created) : Keeps r s (s.hireCmrg x t) := by
  have hnext : w₀.memory.next = s.memory.next := by
    rw [hmemory]
    rfl
  have hne : r ≠ s.memory.next := (hfresh _ (Nat.le_refl _)).ne_of_created hr
  have htask := hfresh t (hnext ▸ Nat.le_of_lt h.task)
  refine ⟨rfl, ?_, fun t' => ?_, fun phase t' ht' => absorb_count ?_ phase,
    fun _ p hp hheld => ⟨p, hp, hheld⟩, fun _ _ hp _ _ => hp, fun b => ?_⟩
  · change (x.world.memory.cmrg r).map _ = _
    rw [h.others r (by rw [hnext]; exact hne), hmemory]
    rfl
  · change (if t = t' then some s.memory.next else s.references t') = some r ↔ _
    split_ifs with ht'
    · rw [← ht', htask.task, Option.some.injEq]
      exact iff_of_false (Ne.symm hne) (Option.some_ne_none r).symm
    · exact Iff.rfl
  · have hne' : t' ≠ t := by
      rintro rfl
      rw [htask.task] at ht'
      cases ht'
    have hzero : [t].count t' = 0 := List.count_eq_zero.2 fun hmem =>
        hne' (List.mem_singleton.1 hmem)
    rw [h.queue, hmemory, List.count_append, hzero]
    rfl
  · rw [calls_iff, calls_iff, hireCmrg_calling hmemory h]
    split_ifs with hb
    · have hfree := (hfresh b (by rw [hb]; exact hnext ▸ Nat.le_of_lt h.proxy)).xpcommands
      rw [Cmrg.calling, hfree, Option.some.injEq]
      exact iff_of_false (Ne.symm hne) (Option.some_ne_none r).symm
    · exact Iff.rfl

theorem tenant_hireCmrg (hmemory : w₀.memory = (s.world w).memory)
    (h : Cmrg.Starts id a t w₀ x.world) (hfresh : ∀ b, s.memory.next ≤ b → s.Fresh b) :
    (s.hireCmrg x t).Tenant s.memory.next id t ⟨id, some t, Cmrg.taskPhase, none, some a⟩ := by
  have hnext : w₀.memory.next = s.memory.next := by
    rw [hmemory]
    rfl
  have hself := hfresh _ (Nat.le_refl _)
  have htask := hfresh t (hnext ▸ Nat.le_of_lt h.task)
  have hcommands : (s.hireCmrg x t).commands s.memory.next = none := hself.commands
  have hown := h.own
  rw [hnext] at hown
  have hqueue : (s.hireCmrg x t).port.queues =
      Function.update s.port.queues Cmrg.taskPhase (s.port.queues Cmrg.taskPhase ++ [t]) := by
    change Function.update s.port.queues Cmrg.taskPhase x.world.memory.queue = _
    rw [h.queue, hmemory]
    rfl
  constructor
  · unfold Roster.ties
    rw [hcommands]
    exact hown
  · rfl
  · intro t'
    change (if t = t' then some s.memory.next else s.references t') = some s.memory.next ↔ t' = t
    split_ifs with ht'
    · exact iff_of_true rfl ht'.symm
    · exact iff_of_false (hself.unreferenced t') (Ne.symm ht')
  · refine .inl ⟨rfl, ?_⟩
    rw [hqueue, Function.update_self, List.count_append, List.count_eq_zero.2 (htask.unscheduled _),
      List.count_singleton_self]
  · intro phase hphase
    rw [hqueue, Function.update_of_ne hphase]
    exact htask.unscheduled phase
  · exact fun b p hp hheld => absurd hheld (hself.clear.proxies b p hp)
  · exact fun b hb => nomatch hb
  · intro b
    rw [calls_iff, hireCmrg_calling hmemory h]
    split_ifs with hb
    · exact iff_of_true rfl (congrArg some hb.symm)
    · refine iff_of_false (fun hcalls => hself.clear.xpcommands b (calls_iff.2 hcalls)) fun hsome =>
        hb ?_
      exact (Option.some.inj hsome).symm
  · intro command hcommand
    cases hcommands.symm.trans hcommand
  · exact fun _ => ⟨hcommands, Option.some_ne_none t⟩

/-- A creation failed, and the channel was removed or has no command. -/
theorem opens_fails (hmemory : w₀.memory = (s.world w).memory) (h : Cmrg.Fails w₀ x.world)
    (hfree : s.port.channels.lookup id = none) (hself : s.Fresh s.memory.next)
    {table : ChannelsTable} (hothers : ∀ id', id' ≠ id → (table.lookup id').map Channel.still =
      (s.port.channels.lookup id').map Channel.still)
    (hown : ∀ channel, table.lookup id = some channel → channel.id = id ∧
      channel.commandRef = none) :
    Opens id (if s.memory.next < x.world.memory.next then some s.memory.next else none) s
      { s.absorb x with
        created := if s.memory.next < x.world.memory.next then s.memory.next :: s.created else
        s.created
        port := { (s.absorb x).port with channels := table } } := by
  have hkeeps : ∀ r, Keeps r s (s.absorb x) := fun r => keeps_fails hmemory h
  refine ⟨rfl, rfl, hfree, fun r => ?_, fun r hr => ?_, hothers, fun r _ => ?_,
    fun channel hid => ?_, fun r hr _ => ?_⟩
  · dsimp only
    split_ifs
    · rw [List.mem_cons, Option.some.injEq, eq_comm]
    · exact ⟨.inr, fun hr => hr.resolve_left nofun⟩
  · split_ifs at hr
    rw [← Option.some.inj hr]
    exact hself.created
  · exact (hkeeps r).aside _ _
  · obtain ⟨hid', hnone⟩ := hown channel hid
    exact ⟨hid', fun r hr => by rw [hnone] at hr; cases hr⟩
  · split_ifs at hr
    obtain rfl := Option.some.inj hr
    exact ⟨fun _ t _ => hself.unreferenced t, hself.clear.proxies, fun b hcalls =>
      hself.clear.xpcommands b (((hkeeps _).calls b).1 hcalls)⟩

/-- What the server makes of a creation without a result -/
theorem createCmrg_none {channels : ChannelsTable} {request : Request} {version : ℕ} (told : Bool)
    (hw₀ : w₀ = { s.world w with
      channels := Roster.opened channels request.channelId (some .cmrg) none })
    (hval : ((Cmrg.create request version).run w₀).val.2 = none)
    (hx : x = ⟨((Cmrg.create request version).run w₀).state, s.handlers⟩) :
    s.createCmrg channels request version w told = { s.absorb x with
      created := if s.memory.next < x.world.memory.next then s.memory.next :: s.created else
      s.created
      port := { (s.absorb x).port with
        channels := if told then x.world.channels.erase request.channelId else
        x.world.channels } } := by
  subst hw₀ hx
  unfold createCmrg
  simp only [X.run_lift]
  rw [hval]
  cases told <;> rfl

/-- What it makes of a new command -/
theorem createCmrg_some {channels : ChannelsTable} {request : Request} {version : ℕ} (told : Bool)
    (hw₀ : w₀ = { s.world w with
      channels := Roster.opened channels request.channelId (some .cmrg) none })
    (hval : ((Cmrg.create request version).run w₀).val.2 = some s.memory.next)
    (hx : x = ⟨((Cmrg.create request version).run w₀).state, s.handlers⟩)
    (hknown : (x.world.memory.cmrg s.memory.next).bind CommandCmrg.task = some t)
    (hnext : s.memory.next < x.world.memory.next) :
    s.createCmrg channels request version w told = { s.hireCmrg x t with
      created := s.memory.next :: s.created
      port := { (s.hireCmrg x t).port with
        channels := opened x.world.channels request.channelId (some .cmrg) (some s.memory.next) }
          } := by
  subst hw₀
  unfold createCmrg
  generalize hr : (X.lift (Cmrg.create request version)).run ⟨_, s.handlers⟩ = r
  have hstate : r.state = x := by rw [← hr, hx]; rfl
  have hfound : r.val.2 = some s.memory.next := by rw [← hr]; exact hval
  obtain ⟨⟨err, found⟩, state, ops⟩ := r
  obtain rfl : state = x := hstate
  obtain rfl : found = some s.memory.next := hfound
  simp only [hknown, if_pos hnext, Option.some.injEq]
  rfl

/-- **The creation of a CMRG command.** -/
theorem opens_createCmrg {channels : ChannelsTable} {request : Request} {version : ℕ}
    (hput : Puts s.port.channels request.channelId channels)
    (hfresh : ∀ b, s.memory.next ≤ b → s.Fresh b)
    (hschedules : Cmrg.SchedulesTask request version
      { s.world w with channels := Roster.opened channels request.channelId (some .cmrg) none })
    (told : Bool) :
    ∃ new, Opens request.channelId new s (s.createCmrg channels request version w told) := by
  obtain ⟨hnew, hothers⟩ := hput.opened (some .cmrg) none
  set id := request.channelId with hid
  set w₀ : World CmrgMemory :=
    { s.world w with channels := Roster.opened channels id (some .cmrg) none } with hw₀
  set x : XpWorld := ⟨((Cmrg.create request version).run w₀).state, s.handlers⟩ with hx
  have hself := hfresh _ (Nat.le_refl _)
  have hmemory : w₀.memory = (s.world w).memory := rfl
  -- the channel, whatever its state is, and the other ones
  have hchannel : ∀ channel, w₀.channels.Resembles x.world.channels →
      x.world.channels.lookup id = some channel →
      channel.still = ⟨id, .closed, false, some .cmrg, none⟩ := by
    intro channel hchannels hfound
    have hmap := hchannels id
    rw [hfound, hnew] at hmap
    exact Option.some.inj hmap
  have hlookup : w₀.channels.Resembles x.world.channels → ∀ id', id' ≠ id →
      (x.world.channels.lookup id').map Channel.still =
        (s.port.channels.lookup id').map Channel.still :=
    fun hchannels id' hne => (hchannels id').trans (congrArg _ (hothers id' hne))
  rcases Cmrg.create_outcome request version (w := w₀) hself.cmrg hschedules with
    ⟨hval, hfails⟩ | ⟨hval, a, t, hstarts⟩
  · refine ⟨if s.memory.next < x.world.memory.next then some s.memory.next else none, ?_⟩
    rw [createCmrg_none told hw₀ hval hx]
    refine opens_fails (w := w) hmemory hfails hput.free hself
      (fun id' hne => ?_) fun channel hfound => ?_
    · split_ifs
      · rw [ChannelsTable.lookup_erase_of_ne hne]
        exact hlookup hfails.channels id' hne
      · exact hlookup hfails.channels id' hne
    · split_ifs at hfound
      · rw [ChannelsTable.lookup_erase_self] at hfound
        cases hfound
      · obtain ⟨hkey, -, -, -, href⟩ := Channel.mk.inj (hchannel channel hfails.channels hfound)
        exact ⟨hkey, href⟩
  · rw [createCmrg_some told hw₀ hval hx hstarts.known hstarts.next]
    have hfound : (opened x.world.channels id (some .cmrg) (some s.memory.next)).lookup id =
        (x.world.channels.lookup id).map fun channel =>
          { channel with command := some .cmrg, commandRef := some s.memory.next } :=
      ChannelsTable.lookup_modify_self
    refine ⟨some s.memory.next, rfl, rfl, hput.free, fun r => ?_, fun r hr => ?_, fun id' hne => ?_,
      fun r hr => ?_, fun channel hid => ?_, fun r hr hended => ?_⟩
    · rw [List.mem_cons, Option.some.injEq, eq_comm]
    · rw [← Option.some.inj hr]
      exact hself.created
    · change ((opened x.world.channels id _ _).lookup id').map _ = _
      rw [Roster.opened, ChannelsTable.lookup_modify_of_ne hne]
      exact hlookup hstarts.channels id' hne
    · exact (keeps_hireCmrg (x := x) hmemory hstarts hfresh hr).aside _ _
    · obtain ⟨found, hfirst, rfl⟩ := Option.map_eq_some_iff.1 (hfound.symm.trans hid)
      obtain ⟨hkey, -, hopen, -, -⟩ := Channel.mk.inj (hchannel found hstarts.channels hfirst)
      refine ⟨hkey, fun r hr => ⟨hr, Option.some_ne_none _, fun _ => ?_⟩⟩
      obtain rfl := Option.some.inj hr
      have htenant := tenant_hireCmrg (x := x) hmemory hstarts hfresh
      exact ⟨t, _, htenant.aside _ _⟩
    · -- the channel is there, and its end was not requested
      have hmap := hstarts.channels id
      rw [hnew] at hmap
      obtain ⟨found, hfirst, hstill⟩ := Option.map_eq_some_iff.1 hmap
      have hend := hended _ (by rw [hfound, hfirst]; rfl) hr
      rw [(Channel.mk.inj hstill).2.2.1] at hend
      cases hend

end

end Roster

end XprcServer
