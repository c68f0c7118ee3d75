import XprcServer.Roster.Desks
import XprcServer.Roster.Creation

/-!
# Runs of a session

As long as X-Plane and the creations do what is expected of them (`Roster.Fulfils`), each step
leaves the session in order.  A task that still runs for a command is enough to know that its
command is a tenant: nothing would refer to it otherwise.

* `InOrder.running` : where the command of a reference is;
* `InOrder.step` : the step lemma;
* `inOrder_reachable` : every state of a run is in order.
-/

namespace XprcServer

namespace Roster

variable {V : Type} {P : ChannelId → Prop} {s s' : Roster V} {ref t : ℕ} {id : ChannelId}

/-! ### Commands that run -/

/-- A command that something refers to runs on a channel. -/
theorem InOrder.running (h : InOrder P s) (hcreated : ref ∈ s.created) (hknown : ¬ s.Clear ref) :
    ∃ id channel, P id ∧ s.port.channels.lookup id = some channel ∧ channel.commandRef = some ref ∧
      channel.destructionRequested = false ∧ s.Rents ref id := by
  by_contra hnone
  -- without a channel that is open, the command would be clear
  refine hknown (h.clear ref hcreated fun id channel hid hfound href => ?_)
  by_contra hopen
  have hopen' : channel.destructionRequested = false := by simpa using hopen
  exact hnone ⟨id, channel, hid, hfound, href, hopen',
    h.tenants id channel ref hid hfound href hopen'⟩

/-- The task of a command is called. -/
theorem InOrder.taskActs (h : InOrder P s) {phase : TaskSchedulePhase}
    (ht : t ∈ s.port.queues phase)
    (hreference : s.references t = some ref) (hcreated : ref ∈ s.created)
    (hacts : ∀ id v, s.Tenant ref id t v → t ∈ s.port.queues v.phase → Acts ref id s s') :
    InOrder P s' := by
  have hknown : ¬ s.Clear ref := fun hclear => hclear.tasks phase t ht hreference
  obtain ⟨id, channel, hid, hfound, href, hopen, t', v, htenant⟩ := h.running hcreated hknown
  obtain rfl : t = t' := (htenant.reference t).1 hreference
  refine h.acts (hacts id v htenant ?_) hid hfound href hopen
  -- the task is in no other phase
  by_contra hmem
  refine htenant.elsewhere phase ?_ ht
  rintro rfl
  exact hmem ht

/-- What is expected of X-Plane when the task of a command is called, seen from the desk. -/
theorem accepts {command : PortCommand V} {run : TaskRun V}
    (hcommand : s.commands ref = some command)
    (h : s.Fulfils (.task ref run)) : (s.desk command).Accepts ref run := by
  cases run with
  | drciFlightloop reserving registerDataAccessor confirm =>
    exact fun c hc => h c (hcommand.trans (congrArg some hc))
  | _ => exact trivial

theorem Tenant.terminate {v : Ties} (h : s.Tenant ref id t v) (u : Surroundings) :
    Acts ref id s (s.terminate u (some ref)) ∧ (s.terminate u (some ref)).Clear ref := by
  unfold Roster.terminate
  dsimp only
  cases hcommand : s.commands ref with
  | some command =>
    obtain ⟨-, hschedules, hholds⟩ := h.desk hcommand
    obtain ⟨hworks, htask, hproxy⟩ :=
      Desk.terminate_works (d := s.desk command) hschedules hholds u.release
    exact ⟨h.works hcommand hworks, (h.withDesk hcommand hworks).clear htask hproxy
      (PortCommand.ties_xpcmd _)⟩
  | none =>
    have hties := h.ties
    unfold Roster.ties at hties
    rw [hcommand] at hties
    obtain ⟨command, hcmrg, -⟩ := Option.map_eq_some_iff.1 hties
    have hgrants : (s.world u.world).Grants :=
      ⟨u.grants.mtxLock, u.grants.schedule, u.grants.registry⟩
    exact h.ends hcmrg (h.terminateCmrg hcmrg hgrants (Std.Refl.refl _))

/-! ### Maintenance -/

/-- Other commands have no part in that one is freed. -/
theorem keeps_destroy {r : ℕ} (hr : r ≠ ref) : Keeps r s (s.destroy (some ref)) where
  commands := Function.update_of_ne hr _ _
  cmrg := congrArg (Option.map _) (Function.update_of_ne hr _ _)
  references _ := Iff.rfl
  queues _ _ _ := rfl
  held _ p hp hheld := ⟨p, hp, hheld⟩
  own _ _ hp _ _ := hp
  calls _ := Iff.rfl

/-- What refers to a command does not depend on that it is there. -/
theorem Clear.destroy (h : s.Clear ref) (r : ℕ) : (s.destroy (some r)).Clear ref :=
  ⟨h.tasks, h.proxies, h.xpcommands⟩

/-- A command that does not run any more is freed. -/
theorem InOrder.destroys (h : InOrder P s) (hended : ∀ id channel, P id →
      s.port.channels.lookup id = some channel → channel.commandRef = some ref →
      channel.destructionRequested = true) : InOrder P (s.destroy (some ref)) := by
  refine h.change (fun _ hid => hid) rfl rfl
    (fun _ channel hid => ⟨channel, hid, rfl, rfl, rfl, fun h => h⟩)
    (fun id channel r hid hfound hr hopen hrents => .inl ⟨hid, ?_, channel, hfound, hr, hopen⟩)
    (fun r _ _ hclear => hclear.destroy ref) ⟨none, reservesFor_of_eq rfl, fun _ hr => ?_⟩
  · refine hrents.keeps (keeps_destroy ?_) rfl
    -- a command that runs is not the one that is freed
    rintro rfl
    rw [hended id channel hid hfound hr] at hopen
    cases hopen
  · cases hr

/-- A channel whose end was requested is removed. -/
theorem InOrder.removes (h : InOrder P s) {channel : Channel} {channels : ChannelsTable}
    (hfound : s.port.channels.lookup id = some channel) (hend : channel.destructionRequested = true)
    (hgone : channels.lookup id = none)
    (hothers : ∀ id', id' ≠ id → channels.lookup id' = s.port.channels.lookup id') :
    InOrder P { s with port := { s.port with channels := channels } } := by
  have hkeeps : ∀ r, Keeps r s { s with port := { s.port with channels := channels } } := fun r =>
    (Keeps.refl r s).aside s.created channels
  refine h.change (fun _ hid => hid) rfl rfl (fun id' channel' hid' => ?_)
    (fun id' channel₁ r hid hfound₁ hr hopen hrents =>
      .inl ⟨hid, hrents.keeps (hkeeps r) rfl, channel₁, ?_, hr, hopen⟩)
    (fun r _ _ hclear => hclear.keeps (hkeeps r)) ⟨none, reservesFor_of_eq rfl, fun _ hr => ?_⟩
  · have hne : id' ≠ id := by
      rintro rfl
      cases hgone.symm.trans hid'
    exact ⟨channel', (hothers id' hne).symm.trans hid', rfl, rfl, rfl, fun hopen => hopen⟩
  · have hne : id' ≠ id := by
      rintro rfl
      obtain rfl := Option.some.inj (hfound.symm.trans hfound₁)
      cases hend.symm.trans hopen
    exact (hothers id' hne).trans hfound₁
  · cases hr

/-! ### Other sessions -/

/-- The registry of data proxies after an operation that is none of the session and its commands. -/
theorem InOrder.foreign (h : InOrder P s) (o : Outcomes) {call : DataproxyCall}
    (hforeign : s.Foreign call) :
    InOrder P { s with registry := (call.exec o s.registry).2 } := by
  refine h.keeps rfl rfl .refl (fun r hr => ?_) fun p' hp' hheld howner => ?_
  · refine ⟨rfl, rfl, fun _ => Iff.rfl, fun _ _ _ => rfl,
      (DataproxyCall.exec_spares o (hforeign.2 r hr none nofun)).held,
      fun b p hp hheld hstate => ?_, fun _ => Iff.rfl⟩
    refine (DataproxyCall.exec_spares o (hforeign.2 r hr (some b) ?_)).own b p rfl hp hstate
    rintro _ ⟨⟩
    exact ⟨p, hp, hheld⟩
  · obtain ⟨b, hb⟩ := List.getElem?_of_mem hp'
    rcases DataproxyCall.exec_descends o s.registry call b p' hb hheld with
      ⟨p, hp, hheld', href, hsession⟩ | ⟨reservation, hres, -, hsession⟩
    · exact .inr ⟨p, List.mem_of_getElem? hp, hheld', hsession.symm.trans howner, href.symm⟩
    · have hcall : call = .reserve reservation := by
        cases call <;> cases hres
        rfl
      exact absurd (hsession.symm.trans howner) (hforeign.1 reservation hcall)

/-! ### All steps -/

/-- **One step.** -/
theorem InOrder.step {a : RosterAct V} (h : InOrder (fun _ => True) s) (hfulfils : s.Fulfils a)
    (hstep : RosterStep s a s') : InOrder (fun _ => True) s' := by
  cases hstep with
  | create hput hfresh htask _ hties hunregistered =>
    exact h.opens (opens_create hfresh htask hput hties hunregistered)
  | complete hput hfresh => exact h.opens (opens_complete hfresh hput _ _)
  | createCmrg hput hfresh =>
    obtain ⟨new, hopens⟩ := opens_createCmrg hput hfresh hfulfils _
    exact h.opens hopens
  | refuse hput => exact h.opens (opens_refuse hput _)
  | dangle hput hfresh => exact absurd hfulfils not_false
  | task ht hreference hown hcommand =>
    refine h.taskActs ht hreference hown fun id v htenant hmem => ?_
    obtain ⟨rfl, hschedules, hholds⟩ := htenant.desk hcommand
    exact htenant.works hcommand (Desk.process_works hschedules hholds hmem _
      (accepts hcommand hfulfils))
  | cmrgFlightloop ht hreference hown hcommand =>
    exact h.taskActs ht hreference hown fun id v htenant _ => htenant.cmrgFlightloop _ _ _
  | cmrgPost ht hreference hown hcommand =>
    exact h.taskActs ht hreference hown fun id v htenant _ => htenant.cmrgPost _
  | event => exact h.idles (Cmrg.idles_xpCommandHandler _ _ _ _)
  | @term id u channel hid hopen hkept =>
    cases href : channel.commandRef with
    | none => exact h
    | some ref =>
      obtain ⟨t, v, htenant⟩ := h.tenants id channel ref trivial hid href hkept
      exact h.acts (htenant.terminate u).1 trivial hid href hkept
  | maintain hid hend href hpop =>
    -- the channel is popped under its own identifier
    rw [h.named _ _ hid] at hpop
    obtain ⟨hgone, hothers⟩ := popChannel_result hpop
    refine (h.destroys fun id' channel' _ hid' href' => ?_).removes hid hend hgone hothers
    obtain rfl := h.distinct _ id' _ channel' _ hid hid' href href'
    rwa [Option.some.inj (hid'.symm.trans hid)]
  | unregisterDropped =>
    exact h.idles (Cmrg.unregisterDroppedXpcommands_rests ⟨s.world _, s.handlers⟩)
  | dataproxy hforeign => exact h.foreign _ hforeign
  | elapse helapses =>
    exact h.keeps helapses.session helapses.created helapses.channels helapses.keeps
      (reservesFor_of_eq helapses.registry)

/-- **Every run.** -/
theorem inOrder_reachable (h : ((rosterSystem V).restrict Fulfils).Reachable s) :
    InOrder (fun _ => True) s := by
  refine h.invariant (fun s hs => ?_) fun s a s' _ hin hn => hin.step hn.1 hn.2
  obtain ⟨hcreated, hnone, hdisowned⟩ := hs
  have habsent : ∀ {id channel}, s.port.channels.lookup id ≠ some channel := by
    intro id channel hid
    cases (hnone id).symm.trans hid
  refine ⟨fun id channel hid => absurd hid habsent, fun id channel ref hid => absurd hid habsent,
    fun id id' channel channel' ref hid => absurd hid habsent,
    fun id channel ref _ hid => absurd hid habsent, fun ref href => ?_, fun p hp hheld howner => ?_⟩
  · rw [hcreated] at href
    exact absurd href List.not_mem_nil
  · exact absurd howner (hdisowned p hp hheld)

end Roster

end XprcServer
