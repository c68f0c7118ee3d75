import XprcServer.Roster.Tenants

/-!
# What CMRG does to others

The commands and the registry of X-Plane commands share their memory, and CMRG works on all of it.
Most of its code changes nothing that a command and the outside know of each other (`Cmrg.Idles`):
messages, events, registrations, and the maintenance of proxies that were dropped.  A command may
lose its proxy when its channel cannot be confirmed (`Cmrg.Loses`), and it gives up everything when
it is terminated (`Cmrg.Ends`).

* `processFlightloop_cases`, `terminate_ends` : the two functions that do more than idle;
* `Roster.keeps_absorb`, `Roster.Tenant.loses`, `Roster.Tenant.ends` : the same for the session.
-/

namespace XprcServer

open Lib
open Logged (Leads)

/-- The command that is told of the events of the proxy, as long as it was not dropped. -/
def Xpcommand.calling (p : Xpcommand) : Option ℕ :=
  if p.state = .created ∨ p.state = .registered then p.callback else none

namespace Cmrg

open Session X Xpcommands

variable {w w' w'' : World CmrgMemory} {s s' : XpWorld} {ref a : ℕ} {found : Xpcommand}

/-- The command that is told of the events of the proxy at an address. -/
def calling (m : CmrgMemory) (a : ℕ) : Option ℕ := (m.xpcommands a).bind Xpcommand.calling

/-- Nothing happened to what the commands and the outside know of each other. -/
structure Idles (w w' : World CmrgMemory) : Prop where
  channels : w.channels.Resembles w'.channels
  queue : w'.memory.queue = w.memory.queue
  ties : ∀ c, (w'.memory.cmrg c).map CommandCmrg.ties = (w.memory.cmrg c).map CommandCmrg.ties
  calling : ∀ b, calling w'.memory b = calling w.memory b

instance : Std.Refl Idles := ⟨fun _ => ⟨.refl, rfl, fun _ => rfl, fun _ => rfl⟩⟩

instance : IsTrans (World CmrgMemory) Idles :=
  ⟨fun _ _ _ h h' => ⟨h.channels.trans h'.channels, h'.queue.trans h.queue,
    fun c => (h'.ties c).trans (h.ties c), fun b => (h'.calling b).trans (h.calling b)⟩⟩

theorem idles_of_speaks (h : w.Speaks w') : Idles w w' :=
  ⟨h.channels, by rw [h.memory], fun _ => by rw [h.memory], fun _ => by rw [h.memory]⟩

/-- A command is changed in place, in fields that the outside has no part in. -/
theorem idles_modifyCommand {f : CommandCmrg → CommandCmrg}
    (hf : ∀ command, w.memory.cmrg ref = some command → (f command).ties = command.ties) :
    Idles w ((modifyCommand ref f).run w).state := by
  refine ⟨.refl, rfl, fun c => ?_, fun _ => rfl⟩
  change (Function.update w.memory.cmrg ref ((w.memory.cmrg ref).map f) c).map _ = _
  by_cases hc : c = ref
  · subst hc
    rw [Function.update_self, Option.map_map]
    cases hcommand : w.memory.cmrg c with
    | none => rfl
    | some command => exact congrArg some (hf command hcommand)
  · rw [Function.update_of_ne hc]

theorem idles_xpCommandHandler (inCommand : ℕ) (inPhase : XplmCommandPhase) (inRefcon : Option ℕ) :
    Leads Idles (xpCommandHandler handleEvent inCommand inPhase inRefcon) :=
  xpCommandHandler_leads (fun _ _ => idles_of_speaks)
    (fun _ _ => idles_modifyCommand fun _ _ => rfl)
    inCommand inPhase inRefcon

theorem idles_of_update (found' : Xpcommand) (hp : w.memory.xpcommands a = some found)
    (hmemory : w'.memory = { w.memory with
      xpcommands := Function.update w.memory.xpcommands a (some found') })
    (hchannels : w'.channels = w.channels) (hcalling : found'.calling = found.calling) :
    Idles w w' := by
  refine ⟨.of_lookup fun _ => by rw [hchannels], by rw [hmemory], fun _ => by rw [hmemory],
    fun b => ?_⟩
  rw [hmemory]
  unfold calling
  dsimp only
  by_cases hb : b = a
  · subst hb
    rw [Function.update_self, hp]
    exact hcalling
  · rw [Function.update_of_ne hb]

/-! ### The registry -/

/-- The same for code that calls X-Plane. -/
def Rests (s s' : XpWorld) : Prop := Idles s.world s'.world

instance : Std.Refl Rests := ⟨fun s => Std.Refl.refl (r := Idles) s.world⟩

instance : IsTrans XpWorld Rests := ⟨fun _ _ _ h h' => IsTrans.trans (r := Idles) _ _ _ h h'⟩

theorem Hushed.rests (h : Hushed s s') : Rests s s' := idles_of_speaks h.world

theorem registerXpcommand_rests (findCommand createCommand proxy : Option ℕ) :
    Leads Rests (registerXpcommand findCommand createCommand proxy) := by
  intro s
  cases proxy with
  | none => exact Std.Refl.refl s
  | some a =>
    simp only [registerXpcommand, Logged.run_bind, run_readXpcommand, Outcome.after_nil]
    cases s.world.memory.xpcommands a with
    | none => exact Std.Refl.refl s
    | some found =>
      simp only [Logged.run_ite]
      split_ifs
      · exact Std.Refl.refl s
      rcases lockedRegistry_cases (fun err => err) _ s with ⟨err, -, -,
        hend⟩ | ⟨s₁, hstart, -, hend⟩
      · exact hend.rests
      refine IsTrans.trans _ _ _ hstart.rests (IsTrans.trans _ _ _ ?_ hend.rests)
      simp only [Logged.run_bind, run_readXpcommand, Outcome.after_nil]
      cases hp : s₁.world.memory.xpcommands a with
      | none => exact Std.Refl.refl s₁
      | some found =>
        simp only [Logged.run_ite]
        split_ifs with hstate
        · exact Std.Refl.refl s₁
        rw [Classical.not_not] at hstate
        have hregistered : ∀ xpRef, Rests s₁ ((registerHandler a found xpRef).run s₁).state := by
          intro xpRef
          refine idles_of_update { found with xpRef := some xpRef, state := .registered } hp ?_ rfl
            ?_
          · simp [registerHandler, registerCommandHandler, modifyXpcommand, updateMemory, hp]
          · simp [Xpcommand.calling, hstate]
        cases findCommand with
        | some xpRef => exact hregistered xpRef
        | none =>
          cases createCommand with
          | some xpRef => exact hregistered xpRef
          | none =>
            exact idles_of_update { found with xpRef := none } hp
              (modifyXpcommand_memory hp) rfl rfl

/-- A proxy was freed. -/
structure Frees (a : ℕ) (w w' : World CmrgMemory) : Prop where
  channels : w.channels.Resembles w'.channels
  queue : w'.memory.queue = w.memory.queue
  cmrg : w'.memory.cmrg = w.memory.cmrg
  calling : ∀ b, Cmrg.calling w'.memory b = if b = a then none else Cmrg.calling w.memory b

/-- A proxy is freed, or nothing happens. -/
theorem unregisterDestroyItem_cases (a : ℕ) (s : XpWorld) :
    (((unregisterDestroyItem a).run s).val ≠ .none ∧ ((unregisterDestroyItem a).run s).state = s) ∨
    (((unregisterDestroyItem a).run s).val = .none ∧
      Frees a s.world ((unregisterDestroyItem a).run s).state.world) := by
  have hfreed : ∀ handlers, Frees a s.world
      ((freeXpcommand a).run { s with handlers := handlers }).state.world := by
    refine fun handlers => ⟨.refl, rfl, rfl, fun b => ?_⟩
    change (Function.update s.world.memory.xpcommands a none b).bind _ = _
    split_ifs with hb
    · rw [hb, Function.update_self]
      rfl
    · rw [Function.update_of_ne hb]
      rfl
  simp only [unregisterDestroyItem, Logged.run_bind, run_readXpcommand, Outcome.after_nil]
  cases s.world.memory.xpcommands a with
  | none => exact .inl ⟨by simp, rfl⟩
  | some found =>
    simp only [Logged.run_ite]
    split_ifs
    · cases found.xpRef with
      | none => exact .inl ⟨by simp, rfl⟩
      | some xpRef => exact .inr ⟨rfl, hfreed _⟩
    · exact .inr ⟨rfl, hfreed s.handlers⟩

/-- Nobody is called by a dropped proxy. -/
theorem Frees.idles (h : Frees a w w') (hnone : Cmrg.calling w.memory a = none) : Idles w w' := by
  refine ⟨h.channels, h.queue, fun c => by rw [h.cmrg], fun b => ?_⟩
  rw [h.calling b]
  split_ifs with hb
  · rw [hb, hnone]
  · rfl

theorem unregisterDroppedLoop_rests (list : List ℕ) (outErr : ErrorCode) :
    Leads Rests (unregisterDroppedLoop list outErr) := by
  induction list generalizing outErr with
  | nil => exact .pure _
  | cons a list ih =>
    intro s
    simp only [unregisterDroppedLoop, Logged.run_bind, run_readXpcommand, Outcome.after_nil]
    cases hp : s.world.memory.xpcommands a with
    | none => exact ih outErr s
    | some found =>
      simp only [Logged.run_ite]
      split_ifs with hdropped
      · simp only [Logged.run_bind, Outcome.after_state]
        refine IsTrans.trans _ _ _ ?_ (ih _ _)
        rcases unregisterDestroyItem_cases a s with ⟨-, hsame⟩ | ⟨-, hfreed⟩
        · rw [hsame]
          exact Std.Refl.refl s
        · refine hfreed.idles ?_
          simp [calling, hp, Xpcommand.calling, hdropped]
      · exact ih outErr s

theorem unregisterDroppedXpcommands_rests : Leads Rests unregisterDroppedXpcommands := by
  intro s
  rcases lockedRegistry_cases (fun _ => ErrorCode.mutexFailed) (do
      let commands ← lift (readMemory CmrgMemory.commands)
      unregisterDroppedLoop commands .none : X ErrorCode) s with
    ⟨err, -, -, hend⟩ | ⟨s₁, hstart, -, hend⟩
  · exact hend.rests
  · exact IsTrans.trans _ _ _ hstart.rests
      (IsTrans.trans _ _ _ (unregisterDroppedLoop_rests _ .none s₁) hend.rests)

theorem unregisterDestroyXpcommand_cases (a : ℕ) (s : XpWorld) :
    let r := (unregisterDestroyXpcommand (some a)).run s
    (r.val ≠ .none ∧ Rests s r.state) ∨ (r.val = .none ∧ Frees a s.world r.state.world) := by
  intro r
  rcases lockedRegistry_cases (fun err => err) (do
      let found ← lift (readMemory fun m => decide (a ∈ m.commands))
      if found then unregisterDestroyItem a else pure .unspecific) s with
    ⟨err, herr, hval, hend⟩ | ⟨s₁, hstart, hval, hend⟩
  · exact .inl ⟨fun hnone => herr (hval.symm.trans hnone), hend.rests⟩
  simp only [Logged.run_bind, run_lift_readMemory, Outcome.after_nil] at hval hend
  by_cases hmem : a ∈ s₁.world.memory.commands
  · simp only [hmem, decide_true, ↓reduceIte] at hval hend
    rcases unregisterDestroyItem_cases a s₁ with ⟨herr, hsame⟩ | ⟨hnone, hfreed⟩
    · rw [hsame] at hend
      exact .inl ⟨fun hnone => herr (hval.symm.trans hnone),
        IsTrans.trans _ _ _ hstart.rests hend.rests⟩
    · refine .inr ⟨hval.trans hnone, ?_, ?_, ?_, fun b => ?_⟩
      · exact hstart.world.channels.trans (hfreed.channels.trans hend.world.channels)
      · exact (congrArg CmrgMemory.queue hend.world.memory).trans
          (hfreed.queue.trans (congrArg CmrgMemory.queue hstart.world.memory))
      · exact (congrArg CmrgMemory.cmrg hend.world.memory).trans
          (hfreed.cmrg.trans (congrArg CmrgMemory.cmrg hstart.world.memory))
      · exact (congrArg (calling · b) hend.world.memory).trans
          ((hfreed.calling b).trans (by rw [hstart.world.memory]))
  · simp only [hmem, decide_false, Bool.false_eq_true, ↓reduceIte] at hval hend
    exact .inl ⟨fun hnone => absurd (hval.symm.trans hnone) (by simp),
      IsTrans.trans _ _ _ hstart.rests hend.rests⟩

/-! ### Initialization -/

theorem sendMessage_rests (call : ChannelCall) (command : CommandCmrg) (text : Option String) :
    Leads Rests (sendMessage call command text) :=
  fun s => idles_of_speaks (call.exec_speaks _ _ _ s.world)

theorem modifyCommand_rests {f : CommandCmrg → CommandCmrg}
    (hf : ∀ command, (f command).ties = command.ties) :
    Leads Rests (lift (modifyCommand ref f)) :=
  fun _ => idles_modifyCommand fun command _ => hf command

/-- The command `ref` has lost its proxy `a`. -/
structure Loses (ref a : ℕ) (w w' : World CmrgMemory) : Prop where
  channels : w.channels.Resembles w'.channels
  queue : w'.memory.queue = w.memory.queue
  others : ∀ c, c ≠ ref → (w'.memory.cmrg c).map CommandCmrg.ties =
    (w.memory.cmrg c).map CommandCmrg.ties
  own : (w'.memory.cmrg ref).map CommandCmrg.ties =
    ((w.memory.cmrg ref).map CommandCmrg.ties).map fun v => { v with xpcmd := none }
  calling : ∀ b, calling w'.memory b = if b = a then none else calling w.memory b

theorem Loses.after (h : Idles w w') (h' : Loses ref a w' w'') : Loses ref a w w'' where
  channels := h.channels.trans h'.channels
  queue := h'.queue.trans h.queue
  others c hc := (h'.others c hc).trans (h.ties c)
  own := by
    rw [h'.own, h.ties]
  calling b := by
    rw [h'.calling b, h.calling b]

theorem Loses.before (h : Loses ref a w w') (h' : Idles w' w'') : Loses ref a w w'' where
  channels := h.channels.trans h'.channels
  queue := h'.queue.trans h.queue
  others c hc := (h'.ties c).trans (h.others c hc)
  own := (h'.ties ref).trans h.own
  calling b := (h'.calling b).trans (h.calling b)

/-- A command forgets the proxy that was freed. -/
theorem Frees.loses (h : Frees a w w') :
    Loses ref a w
      ((modifyCommand ref fun command => { command with xpcmd := none }).run w').state := by
  have hcmrg : ∀ c, ((modifyCommand ref fun command => { command with xpcmd := none }).run
      w').state.memory.cmrg c = if c = ref then (w.memory.cmrg ref).map fun command =>
        { command with xpcmd := none } else w.memory.cmrg c := by
    intro c
    rw [← h.cmrg]
    change Function.update w'.memory.cmrg ref _ c = _
    split_ifs with hc
    · rw [hc, Function.update_self]
    · rw [Function.update_of_ne hc]
  refine ⟨h.channels, h.queue, fun c hc => ?_, ?_, h.calling⟩
  · rw [hcmrg, if_neg hc]
  · rw [hcmrg, if_pos rfl, Option.map_map, Option.map_map]
    rfl

/-- The command gives up its proxy if that can be freed. -/
theorem abandon_cases {command command' : CommandCmrg}
    (hcommand : s.world.memory.cmrg ref = some command') (hxpcmd : command'.xpcmd = command.xpcmd) :
    Rests s ((abandon ref command).run s).state ∨
      ∃ a, command.xpcmd = some a ∧
        Loses ref a s.world ((abandon ref command).run s).state.world := by
  have hend : Leads Rests (do
      let _ ← sendMessage .error command (some "channel confirmation failed")
      lift (markFailed ref) : X Unit) :=
    .bind (sendMessage_rests _ _ _) fun _ => modifyCommand_rests fun _ => rfl
  unfold abandon
  rw [Logged.run_bind, Outcome.after_state]
  cases hproxy : command.xpcmd with
  | none =>
    have hnone : ((unregisterDestroyXpcommand none).run s) = ⟨.none, s, []⟩ := rfl
    left
    simp only [hnone, ↓reduceIte]
    rw [Logged.run_bind, Outcome.after_state]
    have hforgets : Rests s ((lift (modifyCommand ref fun command =>
        { command with xpcmd := none })).run s).state := by
      refine idles_modifyCommand fun found hfound => ?_
      obtain rfl : command' = found := Option.some.inj (hcommand.symm.trans hfound)
      rw [hproxy] at hxpcmd
      unfold CommandCmrg.ties
      rw [hxpcmd]
    exact IsTrans.trans _ _ _ hforgets (hend _)
  | some a =>
    rcases unregisterDestroyXpcommand_cases a s with ⟨herr, hrests⟩ | ⟨hnone, hfrees⟩
    · left
      simp only [herr, ↓reduceIte]
      rw [Logged.run_bind, Outcome.after_state]
      exact IsTrans.trans _ _ _ hrests (IsTrans.trans _ _ _ (sendMessage_rests _ _ _ _) (hend _))
    · refine .inr ⟨a, rfl, ?_⟩
      simp only [hnone, ↓reduceIte]
      rw [Logged.run_bind, Outcome.after_state]
      set s₁ := ((lift (modifyCommand ref fun command => { command with xpcmd := none })).run
        ((unregisterDestroyXpcommand (some a)).run s).state).state
      exact Loses.before hfrees.loses (hend s₁)

/-- In a flight loop nothing changes, or the command loses its proxy. -/
theorem processFlightloop_cases (ref : ℕ) (findCommand createCommand : Option ℕ) (s : XpWorld) :
    let r := (processFlightloop ref findCommand createCommand).run s
    Rests s r.state ∨ ∃ command a, s.world.memory.cmrg ref = some command ∧ command.xpcmd = some a ∧
      Loses ref a s.world r.state.world := by
  intro r
  simp only [r, processFlightloop, Logged.run_bind, run_lift_readMemory, Outcome.after_nil]
  cases hcommand : s.world.memory.cmrg ref with
  | none => exact .inl (Std.Refl.refl s)
  | some command =>
    simp only [Logged.run_ite]
    split_ifs
    swap
    · exact .inl (Std.Refl.refl s)
    have hregister := registerXpcommand_rests findCommand createCommand command.xpcmd s
    have hfailed : Leads Rests (do
        let _ ← sendMessage .error command (some "failed to register command")
        lift (markFailed ref) : X Unit) :=
      .bind (sendMessage_rests _ _ _) fun _ => modifyCommand_rests fun _ => rfl
    unfold initializeCommand
    rw [Logged.run_bind, Outcome.after_state]
    generalize (registerXpcommand findCommand createCommand command.xpcmd).run s = r₁ at hregister ⊢
    rw [Logged.run_ite]
    split_ifs
    · exact .inl (IsTrans.trans _ _ _ hregister (hfailed r₁.state))
    · have hconfirm : Rests s ((sendMessage .confirm command none).run r₁.state).state :=
        IsTrans.trans _ _ _ hregister (sendMessage_rests .confirm command none r₁.state)
      rw [Logged.run_bind, Outcome.after_state]
      generalize (sendMessage .confirm command none).run r₁.state = r₂ at hconfirm ⊢
      rw [Logged.run_ite]
      split_ifs
      · have hties := hconfirm.ties ref
        rw [hcommand, Option.map_some] at hties
        obtain ⟨command', hcommand', hsame⟩ := Option.map_eq_some_iff.1 hties
        rcases abandon_cases hcommand' (congrArg Ties.xpcmd hsame) with hrests | ⟨a, ha, hloses⟩
        · exact .inl (IsTrans.trans _ _ _ hconfirm hrests)
        · exact .inr ⟨command, a, rfl, ha, hloses.after hconfirm⟩
      · have hdone : Leads Rests (lift (modifyCommand ref fun command =>
            { command with initialized := true })) := modifyCommand_rests fun _ => rfl
        exact .inl (IsTrans.trans _ _ _ hconfirm (hdone r₂.state))

/-! ### Termination -/

/-- The command `ref`, as it was, has given up its task, its proxy and its channel. -/
structure Ends (ref : ℕ) (command : CommandCmrg) (w w' : World CmrgMemory) : Prop where
  channels : (w.channels.modify command.channelId Roster.mark).Resembles w'.channels
  queue : ∀ t, command.task = some t → w'.memory.queue = w.memory.queue.erase t
  others : ∀ c, c ≠ ref → w'.memory.cmrg c = w.memory.cmrg c
  calling : ∀ b, calling w'.memory b = if command.xpcmd = some b then none else calling w.memory b

/-- A proxy that calls somebody can be dropped. -/
theorem dropXpcommand_granted (proxy : Option ℕ) (h : ¬ w.refuses .registry)
    (hproxy : ∀ a, proxy = some a → calling w.memory a ≠ none) :
    let r := (dropXpcommand proxy).run w
    r.val = .none ∧ r.state.env = w.env ∧ r.state.channels = w.channels ∧
      r.state.memory.queue = w.memory.queue ∧ r.state.memory.cmrg = w.memory.cmrg ∧
      ∀ b, calling r.state.memory b = if proxy = some b then none else calling w.memory b := by
  intro r
  cases proxy with
  | none => exact ⟨rfl, rfl, rfl, rfl, rfl, fun b => (if_neg (by simp)).symm⟩
  | some a =>
    have hcalling := hproxy a rfl
    unfold calling at hcalling
    cases hp : w.memory.xpcommands a with
    | none => simp [hp] at hcalling
    | some found =>
      have hstate : found.state = .registered ∨ found.state = .created := by
        rw [hp, Option.bind_some] at hcalling
        unfold Xpcommand.calling at hcalling
        split_ifs at hcalling with hstate
        · exact hstate.symm
        · exact absurd rfl hcalling
      have hdestroyed : found.state ≠ .destroyed := by
        rcases hstate with hstate | hstate <;> rw [hstate] <;> decide
      have hp' : (w.holding .registry).memory.xpcommands a = some found := hp
      have hrun : r = ⟨.none, ((modifyXpcommand a fun found => { found with state := .dropped }).run
          (w.holding .registry)).state.apply (.unlock .registry),
            [.lock .registry, .unlock .registry]⟩ := by
        simp [r, dropXpcommand, lockedXpcommand, readMemory, hp, hdestroyed,
          locked_granted h, hp', hstate, modifyXpcommand, updateMemory]
      rw [hrun]
      refine ⟨rfl, rfl, rfl, rfl, rfl, fun b => ?_⟩
      change (((modifyXpcommand a fun found => { found with state := .dropped }).run
        (w.holding .registry)).state.memory.xpcommands b).bind _ = _
      rw [modifyXpcommand_memory hp']
      dsimp only
      by_cases hb : a = b
      · subst hb
        rw [Function.update_self, if_pos rfl]
        simp [Xpcommand.calling]
      · rw [Function.update_of_ne (Ne.symm hb), if_neg (fun he => hb (Option.some.inj he))]
        rfl

theorem unschedule_granted (ref : ℕ) {command : CommandCmrg} {t : ℕ} (h : ¬ w.refuses .schedule)
    (htask : command.task = some t) (hmem : t ∈ w.memory.queue) :
    let r := (unschedule ref command).run w
    r.val = .none ∧ r.state.channels = w.channels.modify command.channelId Roster.mark ∧
      r.state.memory.queue = w.memory.queue.erase t ∧ r.state.memory.xpcommands =
        w.memory.xpcommands ∧
      ∀ c, c ≠ ref → r.state.memory.cmrg c = w.memory.cmrg c := by
  intro r
  have hmem' : t ∈ (w.holding .schedule).memory.queue := hmem
  have hbody : (do
      let err ← unscheduleTask command.task
      if err = .none then do
        modifyCommand ref fun command => { command with task := none }
        pure err
      else pure err : M CmrgMemory ErrorCode).run (w.holding .schedule) =
      ⟨.none, ((modifyCommand ref fun command => { command with task := none }).run
        { w.holding .schedule with
          memory := { w.memory with queue := w.memory.queue.erase t } }).state, []⟩ := by
    simp only [htask, unscheduleTask, readMemory, Logged.run_bind, Logged.run_read,
      hmem', ↓reduceIte, Outcome.after_nil]
    rfl
  have hothers : ∀ (m : CmrgMemory) f f' c, c ≠ ref → Function.update
      (Function.update m.cmrg ref f) ref f' c = m.cmrg c := by
    intro m f f' c hc
    rw [Function.update_of_ne hc, Function.update_of_ne hc]
  simp only [r, unschedule, Logged.run_bind, locked_granted h, hbody, Outcome.after_val,
    Outcome.after_state, ↓reduceIte]
  exact ⟨rfl, rfl, rfl, rfl, hothers w.memory _ _⟩

end Cmrg

/-- Locks that are granted are granted later as well. -/
theorem World.Grants.not_refuses {μ : Type} {w w' : World μ} (h : w.Grants)
    (henv : w'.env = w.env) :
    ¬ w'.refuses .schedule ∧ ¬ w'.refuses .registry := by
  simp [World.refuses, Environment.pendingAt, henv, h.mtxLock, h.schedule, h.registry]

namespace Cmrg

open Session X Xpcommands

variable {w w' w'' : World CmrgMemory} {ref t : ℕ} {command : CommandCmrg}

theorem Ends.after (h : w.Speaks w') (h' : Ends ref command w' w'') : Ends ref command w w'' where
  channels := by
    refine ChannelsTable.Resembles.trans (fun id => ?_) h'.channels
    by_cases hid : id = command.channelId
    · subst hid
      have hstill := h.channels command.channelId
      rw [ChannelsTable.lookup_modify_self, ChannelsTable.lookup_modify_self,
        Option.map_map, Option.map_map]
      have hmark : Channel.still ∘ Roster.mark = Roster.mark ∘ Channel.still := rfl
      rw [hmark, ← Option.map_map, hstill, Option.map_map]
    · rw [ChannelsTable.lookup_modify_of_ne hid, ChannelsTable.lookup_modify_of_ne hid]
      exact h.channels id
  queue t ht := (h'.queue t ht).trans (by rw [h.memory])
  others c hc := (h'.others c hc).trans (by rw [h.memory])
  calling b := (h'.calling b).trans (by rw [h.memory])

/-- **Termination of CMRG.**  A command whose task is scheduled and whose proxy calls it gives up
all of them. -/
theorem terminate_ends (hgrants : w.Grants) (hcommand : w.memory.cmrg ref = some command)
    (htask : command.task = some t) (hmem : t ∈ w.memory.queue)
    (hxpcmd : ∀ a, command.xpcmd = some a → calling w.memory a ≠ none) :
    ((terminate (some ref)).run w).val = .none ∧
      Ends ref command w ((terminate (some ref)).run w).state := by
  have hrun : (terminate (some ref)).run w = (terminateCommand ref command).run w := by
    simp [terminate, readMemory, hcommand]
  rw [hrun]
  -- the message changes nothing, then the proxy is dropped, and then the task is unscheduled
  have hfinish : w.Speaks ((finishChannel command.channelId currentTimeReference none :
      M CmrgMemory ErrorCode).run w).state := ChannelCall.exec_speaks .finish _ _ _ w
  unfold terminateCommand
  rw [Logged.run_bind, Outcome.after_state, Outcome.after_val]
  generalize (finishChannel command.channelId currentTimeReference none :
    M CmrgMemory ErrorCode).run w = r₁ at hfinish ⊢
  obtain ⟨hdropped, henv, hchannels, hqueue, hcmrg, hcalling⟩ :=
    dropXpcommand_granted command.xpcmd (hgrants.not_refuses hfinish.env).2
      (by rw [hfinish.memory]; exact hxpcmd)
  rw [Logged.run_bind, Outcome.after_state, Outcome.after_val]
  generalize (dropXpcommand command.xpcmd).run r₁.state =
    r₂ at hdropped henv hchannels hqueue hcmrg hcalling ⊢
  rw [hdropped, if_pos rfl]
  obtain ⟨hval, hmarked, herased, hxpcommands, hothers⟩ :=
    unschedule_granted ref (hgrants.not_refuses (henv.trans hfinish.env)).1 htask
      (by rw [hqueue, hfinish.memory]; exact hmem)
  refine ⟨hval, .after hfinish ⟨?_, fun t' ht' => ?_, fun c hc => ?_, fun b => ?_⟩⟩
  · rw [hmarked, hchannels]
    exact .refl
  · obtain rfl : t = t' := Option.some.inj (htask.symm.trans ht')
    rw [herased, hqueue]
  · rw [hothers c hc, hcmrg]
  · unfold calling at hcalling ⊢
    rw [hxpcommands]
    exact hcalling b

end Cmrg

/-! ### The session -/

namespace Roster

variable {V : Type} {s s' : Roster V} {ref t a : ℕ} {id : ChannelId} {v : Ties}
  {w : World CmrgMemory} {x : XpWorld} {command : CommandCmrg}

theorem calls_iff : s.Calls ref a ↔ Cmrg.calling s.memory a = some ref := by
  unfold Calls Cmrg.calling Xpcommand.calling
  constructor
  · rintro ⟨p, hp, hcallback, hstate⟩
    rw [hp, Option.bind_some, if_pos hstate]
    exact hcallback
  · intro hcalling
    obtain ⟨p, hp, hcallback⟩ := Option.bind_eq_some_iff.1 hcalling
    split_ifs at hcallback with hstate
    exact ⟨p, hp, hcallback, hstate⟩

/-- The queues after code that has worked on one of them. -/
theorem absorb_count {t' : ℕ}
    (h : x.world.memory.queue.count t' = (s.port.queues Cmrg.taskPhase).count t')
    (phase : TaskSchedulePhase) :
    ((s.absorb x).port.queues phase).count t' = (s.port.queues phase).count t' := by
  change (Function.update s.port.queues Cmrg.taskPhase x.world.memory.queue phase).count t' = _
  by_cases hphase : phase = Cmrg.taskPhase
  · subst hphase
    rw [Function.update_self]
    exact h
  · rw [Function.update_of_ne hphase]

/-- Code that idles does nothing to a session. -/
theorem keeps_absorb (h : Cmrg.Idles (s.world w) x.world) (r : ℕ) : Keeps r s (s.absorb x) where
  commands := rfl
  cmrg := h.ties r
  references _ := Iff.rfl
  queues phase _ _ := absorb_count (congrArg (List.count _) h.queue) phase
  held _ p' hp' hheld := ⟨p', hp', hheld⟩
  own _ _ hp _ _ := hp
  calls a := by
    rw [calls_iff, calls_iff]
    exact iff_of_eq (congrArg (· = some r) (h.calling a))

theorem InOrder.idles {P : ChannelId → Prop} (h : InOrder P s)
    (hi : Cmrg.Idles (s.world w) x.world) :
    InOrder P (s.absorb x) :=
  h.keeps rfl rfl hi.channels (fun r _ => keeps_absorb hi r) (reservesFor_of_eq rfl)

/-- Nothing was done to the tenant. -/
theorem Tenant.idles (h : s.Tenant ref id t v) (hi : Cmrg.Idles (s.world w) x.world) :
    Acts ref id s (s.absorb x) where
  session := rfl
  created := rfl
  others r _ := keeps_absorb hi r
  owned p' hp' hheld howner := .inr ⟨p', hp', hheld, howner, rfl⟩
  outcome := .inl ⟨hi.channels, t, v, h.keeps (keeps_absorb hi ref) rfl⟩

/-- What a CMRG command knows of the outside. -/
theorem Tenant.cmrgTies (h : s.Tenant ref id t v) (hcommand : s.memory.cmrg ref = some command) :
    s.commands ref = none ∧ v = command.ties ∧ command.task = some t ∧
    t ∈ s.port.queues Cmrg.taskPhase := by
  obtain ⟨hnone, htask⟩ := h.cmrg (by rw [hcommand]; exact Option.some_ne_none command)
  obtain rfl : v = command.ties := by
    have hties := h.ties
    unfold Roster.ties at hties
    rw [hnone, hcommand] at hties
    exact (Option.some.inj hties).symm
  rcases h.schedules with ⟨hsome, hcount⟩ | ⟨hgone, -⟩
  · exact ⟨hnone, rfl, hsome, List.count_pos_iff.1 (Nat.lt_of_lt_of_eq Nat.one_pos hcount.symm)⟩
  · exact absurd hgone htask

/-- Another command has no part in what a CMRG command gives up. -/
theorem Tenant.calling_iff (h : s.Tenant ref id t v) {m : CmrgMemory} {r b : ℕ} (hr : r ≠ ref)
    (hcalling : Cmrg.calling m b = if v.xpcmd = some b then none else Cmrg.calling s.memory b) :
    Cmrg.calling m b = some r ↔ Cmrg.calling s.memory b = some r := by
  rw [hcalling]
  split_ifs with hb
  · have hown := calls_iff.1 ((h.calls b).2 hb)
    rw [hown, Option.some.injEq]
    exact iff_of_false nofun (Ne.symm hr)
  · rfl

/-- A command that has lost its proxy goes on. -/
theorem Tenant.loses (h : s.Tenant ref id t v) (hcommand : s.memory.cmrg ref = some command)
    (hxpcmd : command.xpcmd = some a) (hl : Cmrg.Loses ref a (s.world w) x.world) :
    Acts ref id s (s.absorb x) := by
  obtain ⟨hnone, rfl, htask, -⟩ := h.cmrgTies hcommand
  have hcalling : ∀ b, Cmrg.calling x.world.memory b =
      if command.ties.xpcmd = some b then none else Cmrg.calling s.memory b := by
    intro b
    rw [hl.calling b, show command.ties.xpcmd = some a from hxpcmd]
    simp only [Option.some.injEq, eq_comm]
    rfl
  have hqueues : ∀ phase t', ((s.absorb x).port.queues phase).count t' =
      (s.port.queues phase).count t' :=
    fun phase t' => absorb_count (congrArg (List.count _) hl.queue) phase
  have hown : (x.world.memory.cmrg ref).map CommandCmrg.ties =
      some { command.ties with xpcmd := none } := by
    rw [hl.own]
    change ((s.memory.cmrg ref).map _).map _ = _
    rw [hcommand]
    rfl
  refine ⟨rfl, rfl, fun r hr => ?_, fun p' hp' hheld howner => .inr ⟨p', hp', hheld, howner, rfl⟩,
    .inl ⟨hl.channels, t, { command.ties with xpcmd := none }, ?_⟩⟩
  · refine ⟨rfl, hl.others r hr, fun _ => Iff.rfl, fun phase t' _ => hqueues phase t',
      fun _ p' hp' hheld => ⟨p', hp', hheld⟩, fun _ _ hp _ _ => hp, fun b => ?_⟩
    rw [calls_iff, calls_iff]
    exact h.calling_iff hr (hcalling b)
  · constructor
    · unfold Roster.ties
      rw [show (s.absorb x).commands ref = none from hnone]
      exact hown
    · exact h.channelId
    · exact h.reference
    · unfold Port.Schedules
      rw [hqueues]
      exact h.schedules
    · intro phase hphase
      rw [← List.count_eq_zero, hqueues, List.count_eq_zero]
      exact h.elsewhere phase hphase
    · exact h.held
    · exact h.own
    · intro b
      rw [calls_iff]
      change Cmrg.calling x.world.memory b = some ref ↔ none = some b
      rw [hcalling b]
      split_ifs with hb
      · exact iff_of_false nofun nofun
      · exact iff_of_false (fun hcalls => hb ((h.calls b).1 (calls_iff.2 hcalls))) nofun
    · intro c hc
      cases hnone.symm.trans hc
    · exact fun hsome => ⟨hnone, (h.cmrg (by rw [hcommand]; exact Option.some_ne_none command)).2⟩

/-- Nothing refers to a command that was terminated. -/
theorem Tenant.ends (h : s.Tenant ref id t v) (hcommand : s.memory.cmrg ref = some command)
    (he : Cmrg.Ends ref command (s.world w) x.world) :
    Acts ref id s (s.absorb x) ∧ (s.absorb x).Clear ref := by
  obtain ⟨hnone, rfl, htask, hmem⟩ := h.cmrgTies hcommand
  have hcount : (s.port.queues Cmrg.taskPhase).count t = 1 := by
    rcases h.schedules with ⟨-, hcount⟩ | ⟨hgone, -⟩
    · exact hcount
    · cases htask.symm.trans hgone
  have hqueue : x.world.memory.queue = (s.port.queues Cmrg.taskPhase).erase t := he.queue t htask
  have hclear : (s.absorb x).Clear ref := by
    refine ⟨fun phase t' ht' hreference => ?_, fun b p hp hheld => ?_, fun b hcalls => ?_⟩
    · obtain rfl := (h.reference t').1 hreference
      change t' ∈ Function.update s.port.queues Cmrg.taskPhase x.world.memory.queue phase at ht'
      by_cases hphase : phase = Cmrg.taskPhase
      · rw [hphase, Function.update_self, hqueue] at ht'
        have hpos := List.count_pos_iff.2 ht'
        rw [List.count_erase_self, hcount] at hpos
        exact Nat.lt_irrefl 0 hpos
      · rw [Function.update_of_ne hphase] at ht'
        exact h.elsewhere phase hphase ht'
    · cases h.held b p hp hheld
    · have hcalling : Cmrg.calling x.world.memory b = some ref := calls_iff.1 hcalls
      rw [he.calling b] at hcalling
      split_ifs at hcalling with hb
      exact hb ((h.calls b).1 (calls_iff.2 hcalling))
  refine ⟨⟨rfl, rfl, fun r hr => ?_, fun p' hp' hheld howner => .inr ⟨p', hp', hheld, howner, rfl⟩,
    .inr ⟨?_, hclear⟩⟩, hclear⟩
  · refine ⟨rfl, congrArg (Option.map _) (he.others r hr), fun _ => Iff.rfl, fun phase t' ht' => ?_,
      fun _ p' hp' hheld => ⟨p', hp', hheld⟩, fun _ _ hp _ _ => hp, fun b => ?_⟩
    · refine absorb_count ?_ phase
      rw [hqueue, List.count_erase_of_ne]
      rintro rfl
      exact hr (Option.some.inj (ht'.symm.trans ((h.reference t').2 rfl)))
    · rw [calls_iff, calls_iff]
      exact h.calling_iff hr (he.calling b)
  · have hid : command.channelId = id := h.channelId
    rw [← hid]
    exact he.channels

/-- What `cmrg_terminate` needs. -/
theorem Tenant.terminateCmrg (h : s.Tenant ref id t v) (hcommand : s.memory.cmrg ref = some command)
    {w' : World CmrgMemory} (hgrants : w'.Grants) (hspeaks : (s.world w).Speaks w') :
    Cmrg.Ends ref command (s.world w) ((Cmrg.terminate (some ref)).run w').state := by
  obtain ⟨-, rfl, htask, hmem⟩ := h.cmrgTies hcommand
  refine .after hspeaks (Cmrg.terminate_ends hgrants ?_ htask ?_ fun a ha => ?_).2
  · rw [hspeaks.memory]
    exact hcommand
  · rw [hspeaks.memory]
    exact hmem
  · have hcalls := calls_iff.1 ((h.calls a).2 ha)
    rw [hspeaks.memory]
    exact fun hcalling => nomatch hcalls.symm.trans hcalling

/-- **The task of a CMRG command** in a flight loop. -/
theorem Tenant.cmrgFlightloop (h : s.Tenant ref id t v) (findCommand createCommand : Option ℕ)
    (w : World CmrgMemory) :
    Acts ref id s (s.perform (Cmrg.processFlightloop ref findCommand createCommand) w) := by
  rcases Cmrg.processFlightloop_cases ref findCommand createCommand ⟨s.world w, s.handlers⟩ with
    hrests | ⟨command, a, hcommand, hxpcmd, hloses⟩
  · exact h.idles hrests
  · exact h.loses hcommand hxpcmd hloses

/-- **The task of a CMRG command** in post-processing. -/
theorem Tenant.cmrgPost (h : s.Tenant ref id t v) (u : Surroundings) :
    Acts ref id s (s.perform (X.lift (Cmrg.processPost ref)) u.world) := by
  have hidle : Cmrg.Idles (s.world u.world) (s.world u.world) := Std.Refl.refl _
  unfold perform
  simp only [X.run_lift, Cmrg.processPost, Xpcommands.readMemory, Logged.run_bind, Logged.run_read,
    Outcome.after_nil]
  cases hcommand : (s.world u.world).memory.cmrg ref with
  | none => exact h.idles hidle
  | some command =>
    by_cases hfailed : command.failed = true
    · simp only [hfailed, ↓reduceIte, Logged.run_bind, Outcome.after_state, Logged.run_pure]
      have hspeaks :
          (s.world u.world).Speaks ((Session.errorChannel command.channelId currentTimeReference
          none : M CmrgMemory ErrorCode).run (s.world u.world)).state :=
        ChannelCall.exec_speaks .error _ _ _ _
      refine (h.ends hcommand (h.terminateCmrg hcommand ⟨fun n => ?_, ?_, ?_⟩ hspeaks)).1
      · rw [hspeaks.env]
        exact u.grants.mtxLock n
      · rw [hspeaks.env]
        exact u.grants.schedule
      · rw [hspeaks.env]
        exact u.grants.registry
    · simp only [hfailed, Bool.false_eq_true, ↓reduceIte, Logged.run_pure]
      exact h.idles hidle

end Roster

end XprcServer
