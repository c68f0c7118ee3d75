import XprcServer.Commands.Port
import XprcServer.Dataproxy.Ownership
import XprcServer.Lib.System

/-!
# The command DRCI

`command_drci.c`: DRCI hosts a dataref.  Its task reserves a data proxy for the name of the dataref
in the first flight loop and registers it with X-Plane; post-processing removes the task again, or
ends the command if something went wrong.  Termination drops the proxy.

A proxy that was reserved but could not be registered stays with the command, and as it is not
registered it cannot be dropped either.

* `drci_terminate_settles` : in every run in which X-Plane accepts the datarefs, termination
  succeeds and leaves the command without a proxy, so that its name can be reserved again;
* `drci_terminate_stuck` : after a failed registration termination fails, and the proxy stays
  reserved.
-/

namespace XprcServer

open Lib

/-- `command_drci_t`, with what the life-cycle of the command uses -/
structure CommandDrci where
  session : ℕ
  channelId : ChannelId
  proxy : Option ℕ
  datarefName : List UInt8
  types : BitVec 32
  writePermission : UInt8
  registrationTask : Option ℕ
  registered : Bool
  failed : Bool
  deriving DecidableEq, Repr

namespace Drci

/-- `DRCI_REGISTRATION_PHASE` -/
def registrationPhase : TaskSchedulePhase := .beforeFlightModel

/-- `drci_dataproxy_operations` -/
def dataproxyOperations : DataproxyOperations := ⟨some 0, some 1, some 2, some 3, some 4⟩

/-- The command and what it works on. -/
structure State where
  command : CommandDrci
  registry : DataproxyRegistry
  port : Port

namespace State

/-- A message on the channel of the command. -/
def send (s : State) (call : ChannelCall) (text : Option String) : State :=
  { s with
    port := s.port.send call s.command.channelId currentTimeReference (text.map bytes) }

/-- `command->failed = true` -/
def markFailed (s : State) : State := { s with command := { s.command with failed := true } }

end State

/-- The part of `drci_terminate` that removes the task; `lock` is the result of `lock_schedule`. -/
def unscheduleRegistration (lock : ErrorCode) (s : State) : ErrorCode × State :=
  if s.command.registrationTask.isNone then (.none, s)
  else
    let (err, port) := s.port.unscheduleTask lock s.command.registrationTask registrationPhase
    if err ≠ .none then (err, { s with port := port })
    else (.none, { s with port := port, command := { s.command with registrationTask := none } })

/-- The part of `drci_terminate` that gives up the proxy. -/
def dropProxy (o : Outcomes) (s : State) : ErrorCode × State :=
  if s.command.proxy.isNone then (.none, s)
  else
    let (err, registry) := s.registry.dropDataproxy o s.command.proxy
    if err ≠ .none then (err, { s with registry := registry })
    else (.none, { s with registry := registry, command := { s.command with proxy := none } })

/-- `drci_terminate` -/
def terminate (lock : ErrorCode) (o : Outcomes) (s : State) : ErrorCode × State :=
  -- the channel may have been closed before; the result is ignored
  let s := s.send .finish none
  let (err, s) := unscheduleRegistration lock s
  if err ≠ .none then (err, s)
  else
    let (err, s) := dropProxy o s
    if err ≠ .none then (err, s)
    else
      (.none, { s with
        command := { s.command with channelId := badChannelId }
        port := s.port.requestChannelDestruction s.command.channelId })

/-- The arguments `drci_process_flightloop` reserves its proxy with; `ref` is the command. -/
def reservation (ref : ℕ) (command : CommandDrci) : DataproxyRegistry.Reservation where
  datarefName := some command.datarefName
  types := command.types
  writePermission := command.writePermission
  operationsRef := some ref
  session := some command.session
  operations := dataproxyOperations

/-- The end of `drci_process_flightloop`, once the proxy is registered. -/
def confirmRegistration (confirm : ErrorCode) (s : State) : State :=
  let s := { s with command := { s.command with registered := true } }
  let s := s.send .confirm none
  if confirm ≠ .none then s.markFailed else s

/-- `drci_process_flightloop`, with what the registry finds outside when the proxy is reserved and
when it is registered, and the result of `confirm_channel`.  X-Plane's editor for datarefs is
notified at the end, which is nothing the command sees. -/
def processFlightloop (ref : ℕ) (reserving registering : Outcomes) (confirm : ErrorCode)
    (s : State) :
    State :=
  if s.command.failed || s.command.registered then s
  else
    let (proxy, registry) := s.registry.reserveDataproxy reserving (reservation ref s.command)
    let s := { s with registry := registry, command := { s.command with proxy := proxy } }
    if proxy.isNone then
      s.markFailed.send .error
        (some "dataproxy could not be reserved (is the dataref already claimed?)")
    else
      let (err, registry) := s.registry.registerDataproxy registering proxy
      let s := { s with registry := registry }
      if err ≠ .none then s.markFailed.send .error (some "dataref could not be registered")
      else confirmRegistration confirm s

/-- `drci_process_post` -/
def processPost (lock : ErrorCode) (o : Outcomes) (s : State) : State :=
  if s.command.failed then (terminate lock o s).2
  else if !s.command.registered then s
  else
    let (err, port) := s.port.unscheduleTask lock s.command.registrationTask registrationPhase
    let s := { s with port := port }
    if err = .none then { s with command := { s.command with registrationTask := none } }
    else s.markFailed

end Drci

/-! ### Runs -/

/-- The registry can be locked. -/
def Outcomes.locking (registerDataAccessor : Option ℕ) : Outcomes :=
  ⟨.none, fun _ => true, registerDataAccessor⟩

/-- A command that runs, with the results of its termination so far. -/
structure DrciRun where
  state : Drci.State
  results : List ErrorCode

/-- What happens to a command: its task is run, it is terminated, or others use the registry and the
session. -/
inductive DrciAct where
  | flightloop (reserving : Outcomes) (registerDataAccessor : Option ℕ) (confirm : ErrorCode)
  | post
  | term
  | registry (o : Outcomes) (call : DataproxyCall)
  | session (port : Port)

/-- The steps of the command at the address `ref` whose task is `task`.  The task runs while it is
scheduled.  The schedule can always be locked, and so can the registry once the proxy is
reserved. -/
inductive DrciStep (ref task : ℕ) : DrciRun → DrciAct → DrciRun → Prop
  | flightloop {s : DrciRun} (reserving : Outcomes) (registerDataAccessor : Option ℕ)
      (confirm : ErrorCode) (h : task ∈ s.state.port.queues Drci.registrationPhase) :
      DrciStep ref task s (.flightloop reserving registerDataAccessor confirm)
        { s with
          state := Drci.processFlightloop ref reserving (.locking registerDataAccessor) confirm
            s.state }
  | post {s : DrciRun} (h : task ∈ s.state.port.queues Drci.registrationPhase) :
      DrciStep ref task s .post
        { state := Drci.processPost .none (.locking none) s.state
          results := s.results ++
            if s.state.command.failed then [(Drci.terminate .none (.locking none) s.state).1]
            else [] }
  | term {s : DrciRun} :
      DrciStep ref task s .term
        { state := (Drci.terminate .none (.locking none) s.state).2
          results := s.results ++ [(Drci.terminate .none (.locking none) s.state).1] }
  | registry {s : DrciRun} {o : Outcomes} {call : DataproxyCall}
      (h : call.Foreign ref s.state.command.proxy) :
      DrciStep ref task s (.registry o call)
        { s with state := { s.state with registry := (call.exec o s.state.registry).2 } }
  | session {s : DrciRun} {port : Port}
      (h : (port.queues Drci.registrationPhase).count task =
        (s.state.port.queues Drci.registrationPhase).count task) :
      DrciStep ref task s (.session port) { s with state := { s.state with port := port } }

/-- The command as `drci_create` leaves it: its task is scheduled, and no proxy is held in its
name. -/
def DrciRun.Created (ref task : ℕ) (s : DrciRun) : Prop :=
  (∃ calls, s.state.registry = DataproxyCall.run calls) ∧
    (∀ p ∈ s.state.registry.proxies, ¬ p.HeldBy ref) ∧
    s.state.command.proxy = none ∧ s.state.command.registrationTask = some task ∧
    s.state.command.registered = false ∧ s.state.command.failed = false ∧
    (s.state.port.queues Drci.registrationPhase).count task = 1 ∧ s.results = []

/-- All runs of a command. -/
def drciSystem (ref task : ℕ) : System DrciRun DrciAct where
  init := DrciRun.Created ref task
  next := DrciStep ref task

/-- Whenever the command has reserved its proxy, X-Plane accepts the dataref. -/
def DatarefAccepted (ref : ℕ) (s : DrciRun) : DrciAct → Prop
  | .flightloop reserving registerDataAccessor _ =>
    s.state.command.failed = false → s.state.command.registered = false →
      (s.state.registry.reserveDataproxy reserving
        (Drci.reservation ref s.state.command)).1.isSome →
      registerDataAccessor.isSome
  | _ => True

/-- Termination succeeds whenever it is tried.  After it, no proxy is held in the name of the
command, and only others can stand in the way of a reservation. -/
structure DrciRun.Settled (ref : ℕ) (s : DrciRun) : Prop where
  succeeds : ∀ err ∈ s.results, err = .none
  released : s.results ≠ [] → ∀ p ∈ s.state.registry.proxies, ¬ p.HeldBy ref
  reservable : s.results ≠ [] → ∀ o (reservation : DataproxyRegistry.Reservation) name session,
    reservation.datarefName = some name → reservation.session = some session →
    reservation.isValid → o.lock = .none → (∀ n, o.alloc n = true) →
    (s.state.registry.reserveDataproxy o reservation).1 = none →
    ∃ a p, s.state.registry.byDatarefName.get name = some a ∧
      s.state.registry.proxies[a]? = some p ∧ (p.state = .reserved ∨ p.state = .registered) ∧
      p.operationsRef ≠ some ref

/-- The command is in order: its task is scheduled once, or not at all and forgotten, and the only
proxy that is held in its name is its own, which is registered. -/
structure Drci.Sound (ref task : ℕ) (s : Drci.State) : Prop where
  registry : RegistryInvariant s.registry
  scheduled : (s.command.registrationTask = some task ∧
      (s.port.queues registrationPhase).count task = 1) ∨
    (s.command.registrationTask = none ∧ (s.port.queues registrationPhase).count task = 0)
  held : ∀ (b : ℕ) p, s.registry.proxies[b]? = some p → p.HeldBy ref → s.command.proxy = some b
  own : ∀ a, s.command.proxy = some a → s.command.registered = true ∧
    ∃ p, s.registry.proxies[a]? = some p ∧ p.state = .registered

/-- What holds in every run in which X-Plane accepts the datarefs. -/
structure DrciInvariant (ref task : ℕ) (s : DrciRun) : Prop where
  state : Drci.Sound ref task s.state
  succeeds : ∀ err ∈ s.results, err = .none
  ended : s.results ≠ [] → s.state.command.registrationTask = none ∧ s.state.command.proxy = none

namespace Drci

variable {s : State}

/-- Removing the task is the same for this command as for others. -/
theorem unscheduleRegistration_eq (lock : ErrorCode) (s : State) :
    unscheduleRegistration lock s =
      ((s.port.unschedule lock s.command.registrationTask registrationPhase).1,
        { s with
          port := (s.port.unschedule lock s.command.registrationTask registrationPhase).2.2
          command := { s.command with
            registrationTask :=
              (s.port.unschedule lock s.command.registrationTask registrationPhase).2.1 } }) := by
  unfold unscheduleRegistration Port.unschedule
  dsimp only
  split_ifs with hnone hfailed
  · rw [← Option.isNone_iff_eq_none.1 hnone]
  · rfl
  · rfl

theorem dropProxy_registered {a : ℕ} {p : Dataproxy} (hproxy : s.command.proxy = some a)
    (hp : s.registry.proxies[a]? = some p) (hstate : p.state = .registered) :
    dropProxy (.locking none) s = (.none, { s with
      registry := (s.registry.dropDataproxy (.locking none) (some a)).2
      command := { s.command with proxy := none } }) ∧
    (s.registry.dropDataproxy (.locking none) (some a)).2.proxies =
      s.registry.proxies.set a { p with
      state := .dropped
      ownerSession := none
      operationsRef := none
      operations := .cleared } := by
  have hdrop : s.registry.dropDataproxy (.locking none) (some a) = (.none, s.registry.set a { p with
      state := .dropped
      ownerSession := none
      operationsRef := none
      operations := .cleared }) := by
    simp [DataproxyRegistry.dropDataproxy, DataproxyRegistry.onProxy, Outcomes.locking, hp, hstate]
  refine ⟨?_, by rw [hdrop]; rfl⟩
  simp [dropProxy, hproxy, hdrop]

/-- A proxy that is reserved only is not given up by a termination, whoever it is reserved for. -/
theorem terminate_reserved (lock : ErrorCode) (o : Outcomes) {b : ℕ} {p : Dataproxy}
    (hp : s.registry.proxies[b]? = some p) (hstate : p.state = .reserved) :
    (terminate lock o s).2.registry.proxies[b]? = some p := by
  have hdrop : ∀ s' : State, s'.registry = s.registry →
      (dropProxy o s').2.registry.proxies[b]? = some p := by
    intro s' hs'
    have hkept : (s'.registry.dropDataproxy o s'.command.proxy).2.proxies[b]? = some p := by
      rw [hs']
      unfold DataproxyRegistry.dropDataproxy DataproxyRegistry.onProxy
      cases s'.command.proxy with
      | none => exact hp
      | some a =>
        cases hfound : s.registry.proxies[a]? with
        | none => simpa only [hfound] using hp
        | some q =>
          simp only [hfound]
          split_ifs with hlock hregistered
          · exact hp
          · exact hp
          · -- the proxy that is dropped was registered
            have hne : a ≠ b := by
              rintro rfl
              rw [Option.some.inj (hfound.symm.trans hp), hstate] at hregistered
              exact hregistered nofun
            rw [DataproxyRegistry.set, List.getElem?_set_ne hne]
            exact hp
    unfold dropProxy
    dsimp only
    split_ifs
    · rw [hs']
      exact hp
    · exact hkept
    · exact hkept
  have hunscheduled : (unscheduleRegistration lock (s.send .finish none)).2.registry =
      s.registry := by
    rw [unscheduleRegistration_eq]
    rfl
  have hkept := hdrop _ hunscheduled
  unfold terminate
  dsimp only
  split_ifs
  · rw [hunscheduled]
    exact hp
  · exact hkept
  · exact hkept

/-- The first flight loop of a command, if X-Plane accepts the dataref: it gets no proxy, or a
registered one. -/
theorem processFlightloop_cases {ref : ℕ} {reserving : Outcomes} {registerDataAccessor : Option ℕ}
    (confirm : ErrorCode) (hfailed : s.command.failed = false)
    (hregistered : s.command.registered = false)
    (haccepted : (s.registry.reserveDataproxy reserving (reservation ref s.command)).1.isSome →
      registerDataAccessor.isSome) :
    let r := s.registry.reserveDataproxy reserving (reservation ref s.command)
    let s' := processFlightloop ref reserving (.locking registerDataAccessor) confirm s
    (r.1 = none ∧ s'.registry = r.2 ∧ s'.command.proxy = none ∧ s'.command.registered = false) ∨
    ∃ a p xpDataref, r.1 = some a ∧ r.2.proxies[a]? = some p ∧ p.operationsRef = some ref ∧
      s'.registry = (r.2.registerDataproxy (.locking (some xpDataref)) (some a)).2 ∧
      s'.registry.proxies = r.2.proxies.set a
        { p with xpDataref := some xpDataref, state := .registered } ∧
      s'.command.proxy = some a ∧ s'.command.registered = true := by
  have hreserves : DataproxyRegistry.Reserves ref none s.registry (reservation ref s.command)
      (s.registry.reserveDataproxy reserving (reservation ref s.command)) :=
    DataproxyRegistry.reserveDataproxy_reserves
  intro r s'
  change r.1.isSome → _ at haccepted
  cases hproxy : r.1 with
  | none =>
    refine .inl ⟨rfl, ?_⟩
    simp only [s', processFlightloop, hfailed, hregistered, Bool.or_self,
      Bool.false_eq_true, ↓reduceIte]
    simp only [show (s.registry.reserveDataproxy reserving (reservation ref s.command)).1 = none
      from hproxy, Option.isNone_none, ↓reduceIte]
    exact ⟨rfl, rfl, rfl⟩
  | some a =>
    obtain ⟨p, hp, hstate, href⟩ := hreserves.result a hproxy
    obtain ⟨xpDataref, rfl⟩ := Option.isSome_iff_exists.1 (haccepted (by rw [hproxy]; rfl))
    have hregister : r.2.registerDataproxy (.locking (some xpDataref)) (some a) = (.none,
        { r.2.set a { p with xpDataref := some xpDataref, state := .registered } with
          accessors := xpDataref ::ₘ r.2.accessors }) := by
      have hp' : r.2.proxies[a]? = some p := hp
      simp [DataproxyRegistry.registerDataproxy, DataproxyRegistry.onProxy,
        Outcomes.locking, hp', hstate]
    refine .inr ⟨a, p, xpDataref, rfl, hp, href, ?_⟩
    have hfinal : s'.registry = (r.2.registerDataproxy (.locking (some xpDataref)) (some a)).2 ∧
        s'.command.proxy = some a ∧ s'.command.registered = true := by
      simp only [s', processFlightloop, hfailed, hregistered, Bool.or_self,
        Bool.false_eq_true, ↓reduceIte]
      simp only [show (s.registry.reserveDataproxy reserving (reservation ref s.command)).1 =
        some a from hproxy, Option.isNone_some, Bool.false_eq_true, ↓reduceIte]
      rw [show
        (s.registry.reserveDataproxy reserving (reservation ref s.command)).2.registerDataproxy
        (.locking (some xpDataref)) (some a) = _ from hregister]
      simp only [ne_eq, not_true_eq_false, ↓reduceIte, confirmRegistration]
      split_ifs <;> exact ⟨rfl, rfl, rfl⟩
    obtain ⟨hregistry, hown, hdone⟩ := hfinal
    exact ⟨hregistry, by rw [hregistry, hregister]; rfl, hown, hdone⟩

theorem processFlightloop_quiet (ref : ℕ) (reserving registering : Outcomes) (confirm : ErrorCode)
    (s : State) :
    let s' := processFlightloop ref reserving registering confirm s
    s'.command.session = s.command.session ∧ s'.command.channelId = s.command.channelId ∧
      s'.command.registrationTask = s.command.registrationTask ∧ s'.port.queues = s.port.queues ∧
      s'.port.channels = s.port.channels := by
  unfold processFlightloop confirmRegistration
  dsimp only
  split_ifs <;> exact ⟨rfl, rfl, rfl, rfl, rfl⟩

end Drci

namespace Drci.Sound

variable {ref task : ℕ} {s : State}

theorem unscheduleRegistration (h : Sound ref task s) :
    ∃ s', Drci.unscheduleRegistration .none s = (.none, s') ∧ Sound ref task s' ∧
      s'.command.registrationTask = none := by
  rcases h.scheduled with ⟨htask, hcount⟩ | ⟨htask, -⟩
  · obtain ⟨port', hrun, hcount', -⟩ := Port.unscheduleTask_of_count hcount
    refine ⟨{ s with port := port', command := { s.command with registrationTask := none } }, ?_,
      ⟨h.registry, .inr ⟨rfl, hcount'⟩, h.held, h.own⟩, rfl⟩
    simp [Drci.unscheduleRegistration, htask, hrun]
  · exact ⟨s, by simp [Drci.unscheduleRegistration, htask], h, htask⟩

theorem dropProxy (h : Sound ref task s) :
    ∃ s', Drci.dropProxy (.locking none) s = (.none, s') ∧ Sound ref task s' ∧
      s'.command.proxy = none ∧ s'.command.registrationTask = s.command.registrationTask := by
  cases hproxy : s.command.proxy with
  | none => exact ⟨s, by simp [Drci.dropProxy, hproxy], h, hproxy, rfl⟩
  | some a =>
    obtain ⟨-, p, hp, hstate⟩ := h.own a hproxy
    have ha : a < s.registry.proxies.length := (List.getElem?_eq_some_iff.1 hp).1
    obtain ⟨hrun, hproxies⟩ := dropProxy_registered hproxy hp hstate
    refine ⟨_, hrun, ⟨(DataproxyRegistry.dropDataproxy_kept h.registry).invariant,
      h.scheduled, ?_, by simp⟩, rfl, rfl⟩
    -- nothing but the proxy that was dropped was held
    intro b q hq hheld
    rw [hproxies] at hq
    by_cases hb : b = a
    · rw [hb, List.getElem?_set_self ha] at hq
      cases hq
      cases hheld.1
    · rw [List.getElem?_set_ne (Ne.symm hb)] at hq
      have hown := h.held b q hq hheld
      rw [hproxy, Option.some.injEq] at hown
      exact absurd hown.symm hb

theorem terminate (h : Sound ref task s) :
    ∃ s', Drci.terminate .none (.locking none) s = (.none, s') ∧ Sound ref task s' ∧
      s'.command.registrationTask = none ∧ s'.command.proxy = none := by
  have hsend : Sound ref task (s.send .finish none) := ⟨h.registry, h.scheduled, h.held, h.own⟩
  obtain ⟨s₁, hrun₁, h₁, htask₁⟩ := hsend.unscheduleRegistration
  obtain ⟨s₂, hrun₂, h₂, hproxy₂, htask₂⟩ := h₁.dropProxy
  refine ⟨{ s₂ with
    command := { s₂.command with channelId := badChannelId }
    port := s₂.port.requestChannelDestruction s₂.command.channelId }, ?_, ?_,
    htask₂.trans htask₁, hproxy₂⟩
  · simp [Drci.terminate, hrun₁, hrun₂]
  · exact ⟨h₂.registry, h₂.scheduled, h₂.held, h₂.own⟩

/-- The first flight loop: the command has no proxy yet, and the one it reserves is registered. -/
theorem processFlightloop {reserving : Outcomes} {registerDataAccessor : Option ℕ}
    {confirm : ErrorCode} (h : Sound ref task s)
    (haccepted : s.command.failed = false → s.command.registered = false →
      (s.registry.reserveDataproxy reserving (reservation ref s.command)).1.isSome →
      registerDataAccessor.isSome) :
    Sound ref task
      (Drci.processFlightloop ref reserving (.locking registerDataAccessor) confirm s) := by
  by_cases hrun : (s.command.failed || s.command.registered) = true
  · simp only [Drci.processFlightloop, hrun, ↓reduceIte]
    exact h
  · obtain ⟨hfailed, hregistered⟩ : s.command.failed = false ∧ s.command.registered = false := by
      simpa using hrun
    have hnot : ∀ (b : ℕ) p, s.registry.proxies[b]? = some p → ¬ p.HeldBy ref := by
      intro b p hp hheld
      rw [(h.own b (h.held b p hp hheld)).1] at hregistered
      cases hregistered
    have hkept : RegistryInvariant
        (s.registry.reserveDataproxy reserving (reservation ref s.command)).2 :=
      (DataproxyRegistry.reserveDataproxy_kept h.registry).invariant
    have hreserves : DataproxyRegistry.Reserves ref none s.registry (reservation ref s.command)
        (s.registry.reserveDataproxy reserving (reservation ref s.command)) :=
      DataproxyRegistry.reserveDataproxy_reserves
    obtain ⟨-, -, htask, hqueues, -⟩ :=
      processFlightloop_quiet ref reserving (.locking registerDataAccessor) confirm s
    have hscheduled := h.scheduled
    rw [← htask, ← hqueues] at hscheduled
    rcases processFlightloop_cases confirm hfailed hregistered (haccepted hfailed hregistered)
      with ⟨hnone, hregistry, hproxy, -⟩ | ⟨a, p, xpDataref, hsome, hp, -, hregistry,
        hproxies, hproxy, hdone⟩
    · refine ⟨by rw [hregistry]; exact hkept, hscheduled, fun b p hp hheld => ?_,
        fun a ha => by rw [hproxy] at ha; cases ha⟩
      rw [hregistry] at hp
      rcases hreserves.held b p hp hheld with hb | ⟨q, hq, hheld⟩
      · rw [hnone] at hb
        cases hb
      · exact absurd hheld (hnot b q hq)
    · refine ⟨by rw [hregistry]; exact (DataproxyRegistry.registerDataproxy_kept hkept).invariant,
        hscheduled, fun b q hq hheld => ?_, fun b hb => ⟨hdone, ?_⟩⟩
      · rw [hproxies] at hq
        by_cases hb : b = a
        · rw [hproxy, hb]
        · rw [List.getElem?_set_ne (Ne.symm hb)] at hq
          rcases hreserves.held b q hq hheld with hb' | ⟨q', hq', hheld⟩
          · rw [hproxy, ← hsome, hb']
          · exact absurd hheld (hnot b q' hq')
      · rw [hproxy] at hb
        cases hb
        rw [hproxies]
        exact ⟨_, List.getElem?_set_self (List.getElem?_eq_some_iff.1 hp).1, rfl⟩

theorem processPost (h : Sound ref task s)
    (hscheduled : task ∈ s.port.queues registrationPhase) (hfailed : s.command.failed = false) :
    Sound ref task (Drci.processPost .none (.locking none) s) := by
  have hpos := List.count_pos_iff.2 hscheduled
  obtain ⟨htask, hcount⟩ : s.command.registrationTask = some task ∧
      (s.port.queues registrationPhase).count task = 1 := by
    rcases h.scheduled with h | ⟨-, hcount⟩
    · exact h
    · omega
  obtain ⟨port', hrun, hcount', -⟩ := Port.unscheduleTask_of_count hcount
  simp only [Drci.processPost, hfailed, Bool.false_eq_true, ↓reduceIte, htask, hrun]
  split_ifs
  · exact h
  · exact ⟨h.registry, .inr ⟨rfl, hcount'⟩, h.held, h.own⟩

end Drci.Sound

namespace DrciInvariant

variable {ref task : ℕ} {s s' : DrciRun}

theorem terminate (h : DrciInvariant ref task s) :
    DrciInvariant ref task
      { state := (Drci.terminate .none (.locking none) s.state).2
        results := s.results ++ [(Drci.terminate .none (.locking none) s.state).1] } := by
  obtain ⟨s', hrun, hsound, htask, hproxy⟩ := h.state.terminate
  rw [hrun]
  refine ⟨hsound, fun err herr => ?_, fun _ => ⟨htask, hproxy⟩⟩
  rcases List.mem_append.1 herr with herr | herr
  · exact h.succeeds err herr
  · exact List.mem_singleton.1 herr

theorem step {act : DrciAct} (h : DrciInvariant ref task s) (haccepted : DatarefAccepted ref s act)
    (hn : DrciStep ref task s act s') : DrciInvariant ref task s' := by
  -- a command whose task is scheduled has not been terminated
  have hrunning : task ∈ s.state.port.queues Drci.registrationPhase → s.results = [] := by
    intro hmem
    have hpos := List.count_pos_iff.2 hmem
    by_contra hne
    rcases h.state.scheduled with ⟨htask, -⟩ | ⟨-, hcount⟩
    · rw [(h.ended hne).1] at htask
      cases htask
    · omega
  cases hn with
  | flightloop reserving registerDataAccessor confirm hmem =>
    refine ⟨h.state.processFlightloop haccepted, h.succeeds, fun hne => ?_⟩
    exact absurd (hrunning hmem) hne
  | post hmem =>
    cases hfailed : s.state.command.failed with
    | true =>
      simp only [Drci.processPost, hfailed, ↓reduceIte]
      exact h.terminate
    | false =>
      simp only [Bool.false_eq_true, ↓reduceIte, List.append_nil]
      refine ⟨h.state.processPost hmem hfailed, h.succeeds, fun hne => ?_⟩
      exact absurd (hrunning hmem) hne
  | term => exact h.terminate
  | @registry o call hforeign =>
    have hspares := DataproxyCall.exec_spares (r := s.state.registry) o hforeign
    refine ⟨⟨(call.exec_kept o h.state.registry).invariant, h.state.scheduled, ?_, ?_⟩, h.succeeds,
      h.ended⟩
    · intro b p' hp' hheld
      obtain ⟨p, hp, hheld⟩ := hspares.held b p' hp' hheld
      exact h.state.held b p hp hheld
    · intro a hproxy
      obtain ⟨hregistered, p, hp, hstate⟩ := h.state.own a hproxy
      exact ⟨hregistered, p, hspares.own a p hproxy hp hstate, hstate⟩
  | @session port hcount =>
    refine ⟨⟨h.state.registry, ?_, h.state.held, h.state.own⟩, h.succeeds, h.ended⟩
    simpa only [hcount] using h.state.scheduled

theorem settled (h : DrciInvariant ref task s) : s.Settled ref := by
  have hreleased : s.results ≠ [] → ∀ (a : ℕ) p, s.state.registry.proxies[a]? = some p →
      ¬ p.HeldBy ref := by
    intro hne a p hp hheld
    have hproxy := h.state.held a p hp hheld
    rw [(h.ended hne).2] at hproxy
    cases hproxy
  refine ⟨h.succeeds, fun hne p hp => ?_, ?_⟩
  · obtain ⟨a, hp⟩ := List.getElem?_of_mem hp
    exact hreleased hne a p hp
  · intro hne o reservation name session hname hsession hvalid hlock halloc hrefused
    obtain ⟨a, p, hget, hp, hstate⟩ := DataproxyRegistry.reserveDataproxy_refused h.state.registry
      hname hsession hvalid hlock halloc hrefused
    exact ⟨a, p, hget, hp, hstate, fun href => hreleased hne a p hp ⟨href, hstate⟩⟩

end DrciInvariant

/-- **Termination of DRCI.**  In every run in which X-Plane accepts the dataref whenever the command
has reserved its proxy, `drci_terminate` succeeds.  After it no proxy is reserved or registered in
the name of the command, and a reservation of a name is refused only if another owner holds its
proxy. -/
theorem drci_terminate_settles {ref task : ℕ} {s : DrciRun}
    (h : ((drciSystem ref task).restrict (DatarefAccepted ref)).Reachable s) : s.Settled ref := by
  refine (h.invariant (I := DrciInvariant ref task) ?_ ?_).settled
  · rintro s ⟨⟨calls, hcalls⟩, hfree, hproxy, htask, -, -, hcount, hresults⟩
    refine ⟨⟨?_, .inl ⟨htask, hcount⟩, fun b p hp hheld => ?_, fun a ha => ?_⟩, ?_, ?_⟩
    · rw [hcalls]
      exact DataproxyCall.run_invariant calls
    · exact absurd hheld (hfree p (List.mem_of_getElem? hp))
    · rw [hproxy] at ha
      cases ha
    · simp [hresults]
    · exact fun hne => absurd hresults hne
  · intro s act s' _ hs hn
    exact hs.step hn.1 hn.2

/-! ### A registration that fails -/

/-- A command at the address 7 that was just created; its task is at the address 9. -/
def drciCreated : DrciRun where
  state :=
    { command := ⟨1, 0, none, bytes "a", 1, permissionAll, some 9, false, false⟩
      registry := .create
      port := ⟨.empty, fun phase => if phase = Drci.registrationPhase then [9] else [], []⟩ }
  results := []

theorem drciCreated_created : drciCreated.Created 7 9 := by
  refine ⟨⟨[], rfl⟩, ?_, rfl, rfl, rfl, rfl, rfl, rfl⟩
  intro p hp
  cases hp

/-- The proxy is reserved, X-Plane does not accept the dataref, and the command is terminated. -/
theorem drci_terminate_stuck :
    ∃ s, (drciSystem 7 9).Reachable s ∧ s.results = [.dataproxyInvalidState] ∧
      (∃ p ∈ s.state.registry.proxies, p.HeldBy 7) ∧ ¬ s.Settled 7 := by
  have h₀ : (drciSystem 7 9).Reachable drciCreated := .start drciCreated_created
  have h₁ := h₀.step _ (.flightloop (.locking none) none .none (by decide))
  have h₂ := h₁.step _ .term
  refine ⟨_, h₂, rfl, ⟨_, List.mem_cons_self, rfl, .inl rfl⟩, fun hsettled => ?_⟩
  cases hsettled.succeeds .dataproxyInvalidState (List.mem_singleton.2 rfl)

/-- The proxy is registered, and dropped by the termination. -/
theorem drci_terminate_settles_of_accepted :
    ∃ s : DrciRun, s.results = [.none] ∧ s.state.registry.proxies.map Dataproxy.state = [.dropped] ∧
      s.Settled 7 := by
  have h₀ : ((drciSystem 7 9).restrict (DatarefAccepted 7)).Reachable drciCreated :=
    .start drciCreated_created
  have h₁ := h₀.allowed (.flightloop (.locking none) (some 3) .none) (fun _ _ _ => rfl)
    (.flightloop (.locking none) (some 3) .none (by decide))
  have h₂ := h₁.allowed .post trivial (.post (by decide))
  have h₃ := h₂.allowed .term trivial .term
  exact ⟨_, rfl, rfl, drci_terminate_settles h₃⟩

end XprcServer
