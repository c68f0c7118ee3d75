import XprcServer.Roster.Tenants

/-!
# What commands do at their desks

The commands other than CMRG.  There is one statement about what a step of a command does to its
task, its channel and its data proxy (`Desk.Works`), with a lemma for each of the commands; the
commands without a proxy need nothing but their seats for it (`Seat.Moves`).

* `Desk.process_works`, `Desk.terminate_works` : the task of a command, and its termination, after
  which it knows nothing any more;
* `Roster.Tenant.works` : a tenant that has worked goes on as one, or has given up its channel.
-/

namespace XprcServer

/-! ### Seats -/

namespace Seat

variable {t : ℕ} {s s' : Seat}

/-- A step of a command with the task `t` touches no other task.  The command stays on its channel,
or it requests the end of it and has no task any more. -/
structure Moves (t : ℕ) (s s' : Seat) : Prop where
  phase : s'.phase = s.phase
  schedules : s'.port.Schedules t s.phase s'.task
  elsewhere : ∀ (phase : TaskSchedulePhase) (t' : ℕ), t' ≠ t ∨ phase ≠ s.phase →
    (s'.port.queues phase).count t' = (s.port.queues phase).count t'
  outcome : (s'.channelId = s.channelId ∧ s'.port.channels = s.port.channels) ∨
    (s'.task = none ∧ s'.port.channels = s.port.channels.modify s.channelId Roster.mark)

/-- Neither the channel nor the task is touched. -/
theorem Moves.of_quiet (h : s.port.Schedules t s.phase s.task) (hphase : s'.phase = s.phase)
    (hid : s'.channelId = s.channelId) (htask : s'.task = s.task)
    (hqueues : s'.port.queues = s.port.queues) (hchannels : s'.port.channels = s.port.channels) :
    Moves t s s' where
  phase := hphase
  schedules := by
    unfold Port.Schedules
    rw [htask, hqueues]
    exact h
  elsewhere _ _ _ := by rw [hqueues]
  outcome := .inl ⟨hid, hchannels⟩

theorem Moves.unscheduled (port : Port) (lock : ErrorCode) (h : s.port.Schedules t s.phase s.task)
    (hqueues : port.queues = s.port.queues) (hchannels : port.channels = s.port.channels) :
    Moves t s ⟨s.channelId, (port.unschedule lock s.task s.phase).2.1, s.phase,
      (port.unschedule lock s.task s.phase).2.2⟩ := by
  have hport : port.Schedules t s.phase s.task := by
    unfold Port.Schedules
    rw [hqueues]
    exact h
  refine ⟨rfl, (hport.unschedule lock).1, fun phase t' hne => ?_, .inl ⟨rfl, ?_⟩⟩
  · rw [hport.unschedule_elsewhere lock hne, hqueues]
  · exact (Port.unschedule_frame port lock s.task s.phase).2.trans hchannels

/-- The end of the channel is requested, once the task is unscheduled. -/
theorem Moves.vacated (port : Port) (lock : ErrorCode) (h : s.port.Schedules t s.phase s.task)
    (hqueues : port.queues = s.port.queues) (hchannels : port.channels = s.port.channels)
    (hok : (port.unschedule lock s.task s.phase).1 = .none) :
    Moves t s ⟨badChannelId, (port.unschedule lock s.task s.phase).2.1, s.phase,
      (port.unschedule lock s.task s.phase).2.2.requestChannelDestruction s.channelId⟩ := by
  have hport : port.Schedules t s.phase s.task := by
    unfold Port.Schedules
    rw [hqueues]
    exact h
  obtain ⟨hschedules, hgone, -⟩ := hport.unschedule lock
  refine ⟨rfl, hschedules, fun phase t' hne => ?_, .inr ⟨hgone hok, ?_⟩⟩
  · rw [Port.requestChannelDestruction_queues, hport.unschedule_elsewhere lock hne, hqueues]
  · unfold Port.requestChannelDestruction
    dsimp only
    rw [(Port.unschedule_frame port lock s.task s.phase).2, hchannels]
    rfl

theorem terminate_moves (h : s.port.Schedules t s.phase s.task) (lock : ErrorCode) :
    Moves t s (s.terminate lock).2 ∧ (lock = .none → (s.terminate lock).2.task = none) := by
  have hsent : (s.port.send .finish s.channelId currentTimeReference none).Schedules
      t s.phase s.task := h
  obtain ⟨-, hgone, -, -, hok⟩ := hsent.unschedule lock
  unfold Seat.terminate Port.terminate
  dsimp only
  split_ifs with hfailed
  · exact ⟨.unscheduled _ _ h rfl rfl, fun hnone => absurd (hok hnone) hfailed⟩
  · exact ⟨.vacated _ _ h rfl rfl (not_not.1 hfailed), fun _ => hgone (not_not.1 hfailed)⟩

theorem Works.moves (hw : s.Works s') (h : s.port.Schedules t s.phase s.task) : Moves t s s' := by
  cases hw with
  | keeps messages => exact .of_quiet h rfl rfl rfl rfl rfl
  | ends messages lock =>
    have htold : (s.tell messages).port.Schedules t (s.tell messages).phase
        (s.tell messages).task := h
    obtain ⟨hphase, hschedules, helsewhere, houtcome⟩ := (terminate_moves htold lock).1
    exact ⟨hphase, hschedules, helsewhere, houtcome⟩

end Seat

/-! ### Commands that hold X-Plane commands -/

namespace HoldRun

variable {t : ℕ} {s : HoldRun}

/-- A termination unschedules the task first; whether all releases can be queued decides about the
channel only. -/
theorem terminate_moves (h : s.port.Schedules t holdPhase s.command.task) (lock : ErrorCode)
    (env : HoldEntry.ReleaseEnv) :
    s.seat.Moves t (s.terminate lock env).2.seat ∧
      (lock = .none → (s.terminate lock env).2.command.task = none) := by
  obtain ⟨command, port, xp, ended⟩ := s
  cases command with
  | cmtr command =>
    have hsent : (port.send .finish command.channelId currentTimeReference none).Schedules t
      holdPhase command.task := h
    obtain ⟨-, hgone, -, -, hok⟩ := hsent.unschedule lock
    dsimp only [terminate, Cmtr.terminate]
    split_ifs with hfailed hleft
    · exact ⟨.unscheduled (s := seat ⟨.cmtr command, port, xp, ended⟩) _ _ h rfl rfl,
        fun hnone => absurd (hok hnone) hfailed⟩
    · exact ⟨.unscheduled (s := seat ⟨.cmtr command, port, xp, ended⟩) _ _ h rfl rfl,
        fun _ => hgone (not_not.1 hfailed)⟩
    · exact ⟨.vacated (s := seat ⟨.cmtr command, port, xp, ended⟩) _ _ h rfl rfl
        (not_not.1 hfailed), fun _ => hgone (not_not.1 hfailed)⟩
  | cmhd command =>
    have hsent : (port.send .finish command.channelId currentTimeReference none).Schedules t
      holdPhase command.task := h
    obtain ⟨-, hgone, -, -, hok⟩ := hsent.unschedule lock
    dsimp only [terminate, Cmhd.terminate]
    split_ifs with hfailed hleft
    · exact ⟨.unscheduled (s := seat ⟨.cmhd command, port, xp, ended⟩) _ _ h rfl rfl,
        fun hnone => absurd (hok hnone) hfailed⟩
    · exact ⟨.unscheduled (s := seat ⟨.cmhd command, port, xp, ended⟩) _ _ h rfl rfl,
        fun _ => hgone (not_not.1 hfailed)⟩
    · exact ⟨.vacated (s := seat ⟨.cmhd command, port, xp, ended⟩) _ _ h rfl rfl
        (not_not.1 hfailed), fun _ => hgone (not_not.1 hfailed)⟩

theorem processFlightloop_moves (h : s.port.Schedules t holdPhase s.command.task) (millis : ℤ)
    (findCommand : List UInt8 → Option ℕ) (confirm : ErrorCode) :
    s.seat.Moves t (s.processFlightloop millis findCommand confirm).seat := by
  obtain ⟨command, port, xp, ended⟩ := s
  cases command with
  | cmtr command =>
    have hquiet := Cmtr.processFlightloop_quiet millis findCommand confirm ⟨command, port, xp⟩
    exact .of_quiet h rfl hquiet.channelId hquiet.task hquiet.queues hquiet.channels
  | cmhd command =>
    obtain ⟨hid, htask, hqueues, hchannels⟩ :=
      Cmhd.processFlightloop_quiet findCommand confirm ⟨command, port, xp⟩
    exact .of_quiet h rfl hid htask hqueues hchannels

theorem processPost_moves (h : s.port.Schedules t holdPhase s.command.task) (lock : ErrorCode)
    (env : HoldEntry.ReleaseEnv) : s.seat.Moves t (s.processPost lock env).seat := by
  have hterminate := (terminate_moves h lock env).1
  obtain ⟨command, port, xp, ended⟩ := s
  cases command with
  | cmtr command =>
    dsimp only [processPost, Cmtr.processPost]
    split_ifs
    · exact hterminate
    · exact .of_quiet h rfl rfl rfl rfl rfl
  | cmhd command =>
    dsimp only [processPost, Cmhd.processPost]
    split_ifs
    · exact hterminate
    · exact .of_quiet h rfl rfl rfl rfl rfl
    · exact .unscheduled (s := seat ⟨.cmhd command, port, xp, ended⟩) _ _ h rfl rfl
    · exact .unscheduled (s := seat ⟨.cmhd command, port, xp, ended⟩) _ _ h rfl rfl

end HoldRun

/-! ### Data proxies -/

/-- Between `r` and `r'` only the proxies of `ref` were touched, and others were reserved, if at
all, for `ref`. -/
structure LeavesOthers (ref : ℕ) (r r' : DataproxyRegistry) : Prop where
  spares : ∀ (other : ℕ) own, other ≠ ref →
    (∀ b, own = some b → ∃ p, r.proxies[b]? = some p ∧ p.HeldBy other ∧ p.state = .registered) →
    Spares other own r r'
  descends : ∃ reserved, Descends reserved r r' ∧
    ∀ reservation, reserved = some reservation → reservation.operationsRef = some ref

theorem LeavesOthers.refl {ref : ℕ} {r : DataproxyRegistry} : LeavesOthers ref r r :=
  ⟨fun _ _ _ _ => .refl, none, .refl, fun _ hres => nomatch hres⟩

namespace Drci

variable {ref : ℕ} {s : State}

/-- The proxies that are held for `ref` are the one of the command, and that is registered. -/
structure Holds (ref : ℕ) (s : State) : Prop where
  held : ∀ (b : ℕ) p, s.registry.proxies[b]? = some p → p.HeldBy ref → s.command.proxy = some b
  own : ∀ a, s.command.proxy = some a →
    ∃ p, s.registry.proxies[a]? = some p ∧ p.HeldBy ref ∧ p.state = .registered

/-- The command gives up its proxy. -/
theorem dropProxy_holds (h : Holds ref s) :
    ∃ s', dropProxy (.locking none) s = (.none, s') ∧ Holds ref s' ∧
      s'.command = { s.command with proxy := none } ∧ s'.port = s.port ∧
      LeavesOthers ref s.registry s'.registry := by
  cases hproxy : s.command.proxy with
  | none =>
    refine ⟨s, by simp [dropProxy, hproxy], h, ?_, rfl, .refl⟩
    rw [← hproxy]
  | some a =>
    obtain ⟨p, hp, hheld, hstate⟩ := h.own a hproxy
    have ha : a < s.registry.proxies.length := (List.getElem?_eq_some_iff.1 hp).1
    obtain ⟨hrun, hproxies⟩ := dropProxy_registered hproxy hp hstate
    refine ⟨_, hrun, ⟨fun b q hq hq' => ?_, fun b hb => ?_⟩, rfl, rfl,
      fun other own hother hown => ?_, none, DataproxyRegistry.dropDataproxy_descends,
        fun b hb => ?_⟩
    · -- nothing but the proxy that was dropped was held
      rw [hproxies] at hq
      by_cases hb : b = a
      · rw [hb, List.getElem?_set_self ha] at hq
        cases hq
        cases hq'.1
      · rw [List.getElem?_set_ne (Ne.symm hb)] at hq
        have hsame := h.held b q hq hq'
        rw [hproxy, Option.some.injEq] at hsame
        exact absurd hsame.symm hb
    · cases hb
    · refine DataproxyRegistry.dropDataproxy_spares fun b hb hab => ?_
      obtain ⟨q, hq, hq', -⟩ := hown b hb
      obtain rfl : a = b := Option.some.inj hab
      obtain rfl : p = q := Option.some.inj (hp.symm.trans hq)
      exact hother (Option.some.inj (hq'.1.symm.trans hheld.1))
    · cases hb

/-- The first flight loop of a command without a proxy, if X-Plane accepts the dataref. -/
theorem processFlightloop_holds {reserving : Outcomes} {registerDataAccessor : Option ℕ}
    (confirm : ErrorCode) (h : Holds ref s)
    (hnone : s.command.registered = false → s.command.proxy = none)
    (haccepted : s.command.failed = false → s.command.registered = false →
      (s.registry.reserveDataproxy reserving (reservation ref s.command)).1.isSome →
      registerDataAccessor.isSome) :
    let s' := processFlightloop ref reserving (.locking registerDataAccessor) confirm s
    Holds ref s' ∧ (s'.command.registered = false → s'.command.proxy = none) ∧
      LeavesOthers ref s.registry s'.registry := by
  intro s'
  by_cases hidle : (s.command.failed || s.command.registered) = true
  · have hsame : s' = s := by
      simp only [s', processFlightloop, hidle, ↓reduceIte]
    rw [hsame]
    exact ⟨h, hnone, .refl⟩
  · obtain ⟨hfailed, hregistered⟩ : s.command.failed = false ∧ s.command.registered = false := by
      simpa using hidle
    have hnot : ∀ (b : ℕ) p, s.registry.proxies[b]? = some p → ¬ p.HeldBy ref := by
      intro b p hp hheld
      rw [h.held b p hp hheld] at hnone
      cases hnone hregistered
    set r := s.registry.reserveDataproxy reserving (reservation ref s.command) with hr
    have hreserves : ∀ other own, DataproxyRegistry.Reserves other own s.registry
        (reservation ref s.command) r := fun _ _ => DataproxyRegistry.reserveDataproxy_reserves
    have hreserved : Descends (some (reservation ref s.command)) s.registry r.2 :=
      DataproxyRegistry.reserveDataproxy_descends
    have hforeign : ∀ other own, other ≠ ref → Spares other own s.registry r.2 := by
      intro other own hother
      have hcall : (DataproxyCall.reserve (reservation ref s.command)).Foreign other own :=
        fun href => hother (Option.some.inj href).symm
      exact DataproxyCall.exec_spares reserving hcall
    have hnew : ∀ reserved, some (reservation ref s.command) = some reserved →
        reserved.operationsRef = some ref := by
      rintro _ ⟨⟩
      rfl
    rcases processFlightloop_cases confirm hfailed hregistered (haccepted hfailed hregistered)
      with ⟨hr₁, hregistry, hproxy, -⟩ | ⟨a, p, xpDataref, hr₁, hp, href, hregistry,
        hproxies, hproxy, hdone⟩
    · refine ⟨⟨fun b p hp hheld => ?_, fun a ha => ?_⟩, fun _ => hproxy, ?_⟩
      · rw [hregistry] at hp
        rcases (hreserves ref none).held b p hp hheld with hb | ⟨q, hq, hq'⟩
        · cases hr₁.symm.trans hb
        · exact absurd hq' (hnot b q hq)
      · cases hproxy.symm.trans ha
      · rw [hregistry]
        exact ⟨fun other own hother _ => hforeign other own hother, _, hreserved, hnew⟩
    · have ha := (List.getElem?_eq_some_iff.1 hp).1
      refine ⟨⟨fun b q hq hq' => ?_, fun b hb => ?_⟩, fun hfalse => ?_, ?_⟩
      · rw [hproxies] at hq
        by_cases hb : b = a
        · rw [hb]
          exact hproxy
        · rw [List.getElem?_set_ne (Ne.symm hb)] at hq
          rcases (hreserves ref none).held b q hq hq' with hb' | ⟨q', hq₀, hq₀'⟩
          · exact hproxy.trans (hr₁.symm.trans hb')
          · exact absurd hq₀' (hnot b q' hq₀)
      · obtain rfl : a = b := Option.some.inj (hproxy.symm.trans hb)
        rw [hproxies]
        exact ⟨_, List.getElem?_set_self ha, ⟨href, .inr rfl⟩, rfl⟩
      · cases hdone.symm.trans hfalse
      · rw [hregistry]
        refine ⟨fun other own hother hown => (hforeign other own hother).trans
          (DataproxyRegistry.registerDataproxy_spares fun b hb hab => ?_), _,
          hreserved.trans DataproxyRegistry.registerDataproxy_descends, hnew⟩
        -- what others had registered was not reserved
        obtain ⟨q, hq, hq', hstate⟩ := hown b hb
        obtain rfl : a = b := Option.some.inj hab
        have hkept := (hreserves other own).own a q hb hq hstate
        obtain rfl : p = q := Option.some.inj (hp.symm.trans hkept)
        exact hother (Option.some.inj (hq'.1.symm.trans href))

/-- The part of the command that a termination looks at. -/
def seat (s : State) : Seat :=
  ⟨s.command.channelId, s.command.registrationTask, registrationPhase, s.port⟩

variable {t : ℕ}

/-- A command in order can be terminated, and has neither a task nor a proxy then. -/
theorem terminate_holds (h : Holds ref s)
    (hs : s.port.Schedules t registrationPhase s.command.registrationTask) :
    ∃ s', terminate .none (.locking none) s = (.none, s') ∧ Holds ref s' ∧
      s'.command.session = s.command.session ∧ s'.command.proxy = none ∧
      s'.command.registrationTask = none ∧ LeavesOthers ref s.registry s'.registry ∧
      (seat s).Moves t (seat s') := by
  have hsent : (s.send .finish none).port.Schedules t registrationPhase
      s.command.registrationTask := hs
  obtain ⟨-, hgone, -, -, hok⟩ := hsent.unschedule .none
  have hmoves := Seat.Moves.vacated (s := seat s) (s.send .finish none).port .none hs rfl rfl
      (hok rfl)
  have hrun := unscheduleRegistration_eq .none (s.send .finish none)
  set r := (s.send .finish none).port.unschedule .none s.command.registrationTask registrationPhase
  obtain ⟨s₂, hs₂⟩ : ∃ s₂ : State, s₂ = { s.send .finish none with
      port := r.2.2
      command := { s.command with registrationTask := r.2.1 } } := ⟨_, rfl⟩
  have hholds : Holds ref s₂ := by
    rw [hs₂]
    exact ⟨h.held, h.own⟩
  obtain ⟨s₃, hdrop, hholds₃, hcommand, hport, hothers⟩ := dropProxy_holds hholds
  refine ⟨{ s₃ with
    command := { s₃.command with channelId := badChannelId }
    port := s₃.port.requestChannelDestruction s₃.command.channelId }, ?_,
      ⟨hholds₃.held, hholds₃.own⟩,
    ?_, ?_, ?_, ?_, ?_⟩
  · have hrun' : unscheduleRegistration .none (s.send .finish none) = (.none, s₂) := by
      rw [hrun, hs₂]
      exact Prod.ext (hok rfl) rfl
    simp [terminate, hrun', hdrop]
  · rw [hcommand, hs₂]
  · rw [hcommand]
  · rw [hcommand, hs₂]
    exact hgone (hok rfl)
  · rw [hs₂] at hothers
    exact hothers
  · have hid : s₃.command.channelId = s.command.channelId := by
      rw [hcommand, hs₂]
    have hend : seat { s₃ with
        command := { s₃.command with channelId := badChannelId }
        port := s₃.port.requestChannelDestruction s₃.command.channelId } =
        ⟨badChannelId, r.2.1, registrationPhase,
          r.2.2.requestChannelDestruction s.command.channelId⟩ := by
      unfold seat
      rw [hid, hport, hcommand, hs₂]
    rw [hend]
    exact hmoves

/-- Post-processing ends a command that has failed, and gives up the task of one that has registered
its proxy. -/
theorem processPost_holds (h : Holds ref s)
    (hs : s.port.Schedules t registrationPhase s.command.registrationTask)
    (hmem : t ∈ s.port.queues registrationPhase)
    (hnone : s.command.registered = false → s.command.proxy = none) :
    let s' := processPost .none (.locking none) s
    Holds ref s' ∧ s'.command.session = s.command.session ∧
      (s'.command.registered = false → s'.command.proxy = none) ∧
      LeavesOthers ref s.registry s'.registry ∧ (seat s).Moves t (seat s') ∧
      ((s'.command.channelId = s.command.channelId ∧ s'.port.channels = s.port.channels) ∨
        s'.command.proxy = none) := by
  intro s'
  by_cases hfailed : s.command.failed = true
  · obtain ⟨s₁, hrun, hholds, hsession, hproxy, -, hothers, hmoves⟩ := terminate_holds h hs
    have hs' : s' = s₁ := by
      simp [s', processPost, hfailed, hrun]
    rw [hs']
    exact ⟨hholds, hsession, fun _ => hproxy, hothers, hmoves, .inr hproxy⟩
  by_cases hdone : s.command.registered = true
  · have htask : s.command.registrationTask = some t := hs.of_mem hmem
    have hcount : (s.port.queues registrationPhase).count t = 1 := by
      rcases hs with ⟨-, hcount⟩ | ⟨hgone, -⟩
      · exact hcount
      · cases htask.symm.trans hgone
    obtain ⟨port', hrun, -, hchannels, -⟩ := Port.unscheduleTask_of_count hcount
    have hs' : s' = { s with port := port', command :=
        { s.command with registrationTask := none } } := by
      simp [s', processPost, hfailed, hdone, htask, hrun]
    have hunschedule : s.port.unschedule .none s.command.registrationTask registrationPhase =
        (.none, none, port') := by
      simp [Port.unschedule, htask, hrun]
    have hmoves := Seat.Moves.unscheduled (s := seat s) s.port .none hs rfl rfl
    simp only [seat, hunschedule] at hmoves
    rw [hs']
    exact ⟨⟨h.held, h.own⟩, rfl, hnone, .refl, hmoves, .inl ⟨rfl, hchannels⟩⟩
  · have hs' : s' = s := by
      simp [s', processPost, hfailed, hdone]
    rw [hs']
    exact ⟨h, rfl, hnone, .refl, .of_quiet hs rfl rfl rfl rfl rfl, .inl ⟨rfl, rfl⟩⟩

end Drci

/-! ### Desks -/

namespace Desk

variable {V : Type} {d d' : Desk V} {session ref t : ℕ}

/-- The part of the command that a termination looks at. -/
def seat (d : Desk V) : Seat :=
  ⟨d.command.ties.channelId, d.command.ties.task, d.command.ties.phase, d.port⟩

/-- The proxies that are held for `ref` are the one of the command, and that is registered.  A DRCI
command of the session has no proxy unless it has registered it. -/
structure Holds (session ref : ℕ) (d : Desk V) : Prop where
  held : ∀ (b : ℕ) p, d.registry.proxies[b]? = some p → p.HeldBy ref → d.command.ties.proxy = some b
  own : ∀ a, d.command.ties.proxy = some a →
    ∃ p, d.registry.proxies[a]? = some p ∧ p.HeldBy ref ∧ p.state = .registered
  drci : ∀ command, d.command = .drci command →
    command.session = session ∧ (command.registered = false → command.proxy = none)

/-- What a step of the command at `ref` with the task `t` does.  If it gives up its channel, it has
no proxy any more. -/
structure Works (session ref t : ℕ) (d d' : Desk V) : Prop where
  seat : d.seat.Moves t d'.seat
  holds : d'.Holds session ref
  others : LeavesOthers ref d.registry d'.registry
  outcome : (d'.command.ties.channelId = d.command.ties.channelId ∧
    d'.port.channels = d.port.channels) ∨
    d'.command.ties.proxy = none

theorem Works.refl (hs : d.port.Schedules t d.command.ties.phase d.command.ties.task)
    (h : d.Holds session ref) : Works session ref t d d :=
  ⟨.of_quiet hs rfl rfl rfl rfl rfl, h, .refl, .inl ⟨rfl, rfl⟩⟩

/-- A command without a proxy only has a seat. -/
theorem Works.of_moves (h : d.Holds session ref) (hproxy : d.command.ties.proxy = none)
    (hmoves : d.seat.Moves t d'.seat) (hregistry : d'.registry = d.registry)
    (hproxy' : d'.command.ties.proxy = none) (hother : ∀ command, d'.command ≠ .drci command) :
    Works session ref t d d' where
  seat := hmoves
  holds := by
    refine ⟨fun b p hp hheld => ?_, fun a ha => ?_, fun command hcommand =>
      absurd hcommand (hother command)⟩
    · rw [hregistry] at hp
      cases hproxy.symm.trans (h.held b p hp hheld)
    · cases hproxy'.symm.trans ha
  others := by
    rw [hregistry]
    exact .refl
  outcome := .inr hproxy'

/-- **A termination.**  Every command in order can be terminated, and knows nothing any more. -/
theorem terminate_works (hs : d.port.Schedules t d.command.ties.phase d.command.ties.task)
    (h : d.Holds session ref) (env : HoldEntry.ReleaseEnv) :
    Works session ref t d (d.terminate env) ∧ (d.terminate env).command.ties.task = none ∧
      (d.terminate env).command.ties.proxy = none := by
  obtain ⟨command, port, xp, registry⟩ := d
  cases command with
  | hold command =>
    obtain ⟨hmoves, hgone⟩ := HoldRun.terminate_moves (s := ⟨command, port, xp, false⟩) hs .none env
    exact ⟨.of_moves h rfl hmoves rfl rfl nofun, hgone rfl, rfl⟩
  | drci command =>
    obtain ⟨s', hrun, hholds, hsession, hproxy, htask, hothers, hmoves⟩ :=
      Drci.terminate_holds (s := ⟨command, registry, port⟩) ⟨h.held, h.own⟩ hs
    simp only [terminate, hrun]
    refine ⟨⟨hmoves, ⟨hholds.held, hholds.own, ?_⟩, hothers, .inr hproxy⟩, htask, hproxy⟩
    rintro _ ⟨⟩
    exact ⟨hsession.trans (h.drci command rfl).1, fun _ => hproxy⟩
  | drqv command =>
    obtain ⟨hmoves, hgone⟩ := Seat.terminate_moves (s := Drqv.seat ⟨command, port⟩) hs .none
    exact ⟨.of_moves h rfl hmoves rfl rfl nofun, hgone rfl, rfl⟩
  | drmu id task fields =>
    obtain ⟨hmoves, hgone⟩ :=
      Seat.terminate_moves (s := Drmu.seat ⟨id, task, fields, port⟩) hs .none
    exact ⟨.of_moves h rfl hmoves rfl rfl nofun, hgone rfl, rfl⟩
  | drls id task fields =>
    obtain ⟨hmoves, hgone⟩ :=
      Seat.terminate_moves (s := Drls.seat ⟨id, task, fields, port⟩) hs .none
    exact ⟨.of_moves h rfl hmoves rfl rfl nofun, hgone rfl, rfl⟩

/-- A DRCI command without a proxy that the task is run for in a flight loop: X-Plane accepts the
dataref, if the proxy can be reserved. -/
def Accepts (ref : ℕ) (d : Desk V) : TaskRun V → Prop
  | .drciFlightloop reserving registerDataAccessor _ =>
    ∀ command, d.command = .drci command → command.failed = false → command.registered = false →
      (d.registry.reserveDataproxy reserving (Drci.reservation ref command)).1.isSome →
      registerDataAccessor.isSome
  | _ => True

/-- **A call of the task.** -/
theorem process_works (hs : d.port.Schedules t d.command.ties.phase d.command.ties.task)
    (h : d.Holds session ref) (hmem : t ∈ d.port.queues d.command.ties.phase) (run : TaskRun V)
    (haccepts : d.Accepts ref run) : Works session ref t d (d.process ref run) := by
  have hrefl := Works.refl hs h
  obtain ⟨command, port, xp, registry⟩ := d
  cases command with
  | hold command =>
    cases run with
    | holdFlightloop millis findCommand confirm =>
      have hmoves := HoldRun.processFlightloop_moves (s := ⟨command, port, xp, false⟩)
          hs millis findCommand
        confirm
      exact .of_moves h rfl hmoves rfl rfl nofun
    | holdPost env =>
      have hmoves := HoldRun.processPost_moves (s := ⟨command, port, xp, false⟩) hs .none env
      exact .of_moves h rfl hmoves rfl rfl nofun
    | _ => exact hrefl
  | drci command =>
    obtain ⟨hsession, hproxy⟩ := h.drci command rfl
    cases run with
    | drciFlightloop reserving registerDataAccessor confirm =>
      obtain ⟨-, hid, htask, hqueues, hchannels⟩ := Drci.processFlightloop_quiet ref reserving
        (.locking registerDataAccessor) confirm ⟨command, registry, port⟩
      obtain ⟨hholds, hnone, hothers⟩ :=
        Drci.processFlightloop_holds (s := ⟨command, registry, port⟩)
        confirm ⟨h.held, h.own⟩ hproxy (haccepts command rfl)
      refine ⟨.of_quiet hs rfl hid htask hqueues hchannels, ⟨hholds.held, hholds.own, ?_⟩, hothers,
        .inl ⟨hid, hchannels⟩⟩
      rintro _ ⟨⟩
      exact ⟨(Drci.processFlightloop_quiet _ _ _ _ _).1.trans hsession, hnone⟩
    | drciPost =>
      obtain ⟨hholds, hsession', hnone, hothers, hmoves, houtcome⟩ :=
        Drci.processPost_holds (s := ⟨command, registry, port⟩) ⟨h.held, h.own⟩ hs hmem hproxy
      refine ⟨hmoves, ⟨hholds.held, hholds.own, ?_⟩, hothers, houtcome⟩
      rintro _ ⟨⟩
      exact ⟨hsession'.trans hsession, hnone⟩
    | _ => exact hrefl
  | drqv command =>
    cases run with
    | drqvFlightloop now xp =>
      exact .of_moves h rfl ((Drqv.processFlightloop_works xp now ⟨command, port⟩).moves hs)
        rfl rfl nofun
    | drqvPost submitted env =>
      exact .of_moves h rfl ((Drqv.processPost_works .none submitted env ⟨command, port⟩).moves hs)
        rfl rfl
        nofun
    | _ => exact hrefl
  | drmu id task fields =>
    cases run with
    | drmuFlightloop work =>
      exact .of_moves h rfl ((Drmu.processFlightloop_works work ⟨id, task, fields, port⟩).moves hs)
        rfl rfl
        nofun
    | drmuPost work =>
      exact .of_moves h rfl ((Drmu.processPost_works .none work ⟨id, task, fields, port⟩).moves hs)
        rfl rfl
        nofun
    | _ => exact hrefl
  | drls id task fields =>
    cases run with
    | drls work =>
      exact .of_moves h rfl ((Drls.process_works .none work ⟨id, task, fields, port⟩).moves hs)
        rfl rfl nofun
    | _ => exact hrefl

end Desk

/-! ### Tenants -/

namespace Roster

variable {V : Type} {s : Roster V} {ref t : ℕ} {id : ChannelId} {v : Ties} {command : PortCommand V}
  {d' : Desk V}

/-- What a tenant finds on its desk. -/
theorem Tenant.desk (h : s.Tenant ref id t v) (hcommand : s.commands ref = some command) :
    v = command.ties ∧ s.port.Schedules t command.ties.phase command.ties.task ∧
      (s.desk command).Holds s.session ref := by
  obtain rfl : v = command.ties := by
    have hties := h.ties
    unfold Roster.ties at hties
    rw [hcommand] at hties
    exact (Option.some.inj hties).symm
  exact ⟨rfl, h.schedules, h.held, h.own, fun c hc => h.drci c (hcommand.trans (congrArg some hc))⟩

/-- The command is still in order after its work. -/
theorem Tenant.withDesk (h : s.Tenant ref id t v) (hcommand : s.commands ref = some command)
    (hw : Desk.Works s.session ref t (s.desk command) d') :
    (s.withDesk ref d').Tenant ref d'.command.ties.channelId t d'.command.ties := by
  obtain ⟨rfl, -, -⟩ := h.desk hcommand
  have hphase : d'.command.ties.phase = command.ties.phase := hw.seat.phase
  have hself : (s.withDesk ref d').commands ref = some d'.command := Function.update_self _ _ _
  constructor
  · unfold Roster.ties
    rw [hself]
  · rfl
  · exact h.reference
  · rw [hphase]
    exact hw.seat.schedules
  · intro phase hne
    rw [hphase] at hne
    have hcount := hw.seat.elsewhere phase t (.inr hne)
    rw [← List.count_eq_zero]
    exact hcount.trans (List.count_eq_zero.2 (h.elsewhere phase hne))
  · exact hw.holds.held
  · exact hw.holds.own
  · intro a
    rw [PortCommand.ties_xpcmd]
    have hcalls := h.calls a
    rwa [PortCommand.ties_xpcmd] at hcalls
  · intro c hc
    rw [hself] at hc
    exact hw.holds.drci c (Option.some.inj hc)
  · intro hsome
    cases hcommand.symm.trans (h.cmrg hsome).1

/-- **Work.**  A tenant that has worked goes on, or it has requested the end of its channel. -/
theorem Tenant.works (h : s.Tenant ref id t v) (hcommand : s.commands ref = some command)
    (hw : Desk.Works s.session ref t (s.desk command) d') : Acts ref id s (s.withDesk ref d') := by
  have htenant := h.withDesk hcommand hw
  obtain ⟨rfl, -, -⟩ := h.desk hcommand
  have hid : command.ties.channelId = id := h.channelId
  have hstays : d'.command.ties.channelId = command.ties.channelId →
      d'.port.channels = s.port.channels →
      s.port.channels.Resembles (s.withDesk ref d').port.channels ∧
      (s.withDesk ref d').Rents ref id := by
    intro hsame hchannels
    rw [hsame, hid] at htenant
    exact ⟨.of_lookup fun _ => congrArg (ChannelsTable.lookup · _) hchannels, t, _, htenant⟩
  refine ⟨rfl, rfl, fun other hother => ?_, fun p' hp' hheld howner => ?_, ?_⟩
  · refine ⟨Function.update_of_ne hother _ _, rfl, fun _ => Iff.rfl, fun phase t' ht' => ?_,
      (hw.others.spares other none hother nofun).held, fun b p hp hheld hstate =>
        ?_, fun _ => Iff.rfl⟩
    · refine hw.seat.elsewhere phase t' (.inl ?_)
      rintro rfl
      exact hother (Option.some.inj (ht'.symm.trans ((h.reference t').2 rfl)))
    · refine (hw.others.spares other (some b) hother ?_).own b p rfl hp hstate
      rintro _ ⟨⟩
      exact ⟨p, hp, hheld, hstate⟩
  · obtain ⟨b, hb⟩ := List.getElem?_of_mem hp'
    obtain ⟨reserved, hdescends, hreserved⟩ := hw.others.descends
    rcases hdescends b p' hb hheld with ⟨p, hp, hheld', href, hsession⟩ | ⟨reservation,
      hres, href, -⟩
    · exact .inr ⟨p, List.mem_of_getElem? hp, hheld', hsession.symm.trans howner, href.symm⟩
    · exact .inl ⟨ref, rfl, href.trans (hreserved reservation hres)⟩
  · rcases hw.seat.outcome with ⟨hsame, hchannels⟩ | ⟨htask, hchannels⟩
    · exact .inl (hstays hsame hchannels)
    rcases hw.outcome with ⟨hsame, hchannels'⟩ | hproxy
    · exact .inl (hstays hsame hchannels')
    · refine .inr ⟨.of_lookup fun _ => ?_, htenant.clear htask hproxy (PortCommand.ties_xpcmd _)⟩
      rw [← hid]
      exact congrArg (ChannelsTable.lookup · _) hchannels

end Roster

end XprcServer
