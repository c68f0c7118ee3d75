import XprcServer.Basic
import XprcServer.Lib.Alternation

/-!
# The server manager

`server_manager.c`: requests to start, stop, restart or shut down record two wanted states, one
after the other, and maintenance brings the server there step by step.

* `ServerManager.updateState_cases` : what one round of maintenance can do;
* `ServerManager.maintain_maintain_settles` : two rounds of maintenance are enough;
* `ServerManager.Orderly.perform` : the manager aims at what was recorded last, and at no server
  once a shutdown is pending;
* `managedServer_obeys_requests` : starts and stops over any sequence of calls, and where they lead.

A shutdown request sets its flag before it takes the lock.  Without the lock the wanted states stay
as they are, and a start that is still to be tried goes ahead.
-/

namespace XprcServer

open Lib

/-- `managed_server_state_t`, but for the state when it is not known -/
inductive ManagedServerState where
  | stopped
  | started
  | restarting
  | shutdown
  deriving DecidableEq

/-- `server_manager_t`.  `server` and `stateListener` say whether there is one. -/
structure ServerManager where
  server : Bool
  userInterventionNeeded : Bool
  changeState : Bool
  wantedStateFirst : Bool
  wantedStateNext : Bool
  shutdown : Bool
  stateListener : Bool
  deriving DecidableEq

/-- `create_server_manager`, with or without a listener registered afterwards -/
def createServerManager (stateListener : Bool) : ServerManager :=
  ⟨false, false, false, false, false, false, stateListener⟩

/-- How the calls of other modules turn out during one call; `start_server` and `stop_server`
succeed. -/
structure ManagerOutcomes where
  /-- `lock_server_manager` in `update_wanted_state` -/
  lockUpdate : ErrorCode
  /-- `lock_server_manager` in `maintain_server_manager` -/
  lockMaintain : ErrorCode
  allLicensesAccepted : Bool
  updateServerConfig : ErrorCode
  maintainServer : ErrorCode
  deriving DecidableEq

/-- What the manager does to the server and tells its listener. -/
inductive ManagerEvent where
  | maintainServer
  | startServer
  | stopServer
  | notify (state : ManagedServerState)
  deriving DecidableEq

namespace ServerManager

variable (o : ManagerOutcomes) (m : ServerManager)

/-- `update_wanted_state` -/
def updateWantedState (first next : Bool) : ErrorCode × ServerManager :=
  if o.lockUpdate ≠ .none then (o.lockUpdate, m)
  else
    let m := { m with userInterventionNeeded := false }
    if m.shutdown && (first || next) then (.unspecific, m)
    else (.none, { m with wantedStateFirst := first, wantedStateNext := next, changeState := true })

/-- `do_server_start` -/
def doServerStart : ErrorCode × ServerManager × List ManagerEvent :=
  if !o.allLicensesAccepted then (.unspecific, m, [])
  else if o.updateServerConfig ≠ .none then
    (o.updateServerConfig, { m with userInterventionNeeded := true }, [])
  else (.none, { m with server := true }, [.startServer])

/-- `do_server_stop` -/
def doServerStop : ErrorCode × ServerManager × List ManagerEvent :=
  if !m.server then (.none, m, [])
  else (.none, { m with server := false }, [.stopServer])

/-- `get_managed_server_state_locked` -/
def stateLocked : ManagedServerState :=
  if m.shutdown then .shutdown
  else if m.server then .started
  else if m.changeState && (m.wantedStateFirst || m.wantedStateNext) then .restarting
  else .stopped

/-- The first wanted state is passed over once it is reached. -/
def forward : ServerManager :=
  { m with wantedStateFirst :=
      if m.server = m.wantedStateFirst then m.wantedStateNext else m.wantedStateFirst }

/-- The start or stop that the first wanted state asks for. -/
def doTransition : ErrorCode × ServerManager × List ManagerEvent :=
  if m.wantedStateFirst then m.doServerStart o else m.doServerStop

/-- The handling of state changes in `maintain_server_manager`, after the maintenance of the server
itself has ended with `err`. -/
def updateState (err : ErrorCode) : ErrorCode × ServerManager × List ManagerEvent :=
  if !m.changeState then (err, m, [])
  else
    let m := m.forward
    let wantedStateToggles := m.wantedStateFirst != m.wantedStateNext
    if !wantedStateToggles && m.server == m.wantedStateFirst then
      (err, { m with changeState := false }, [])
    else
      let (err, m, events) := m.doTransition o
      if err ≠ .none then
        (err, if m.userInterventionNeeded then { m with changeState := false } else m, events)
      else (.none, if wantedStateToggles then m else { m with changeState := false }, events)

/-- `maintain_server_manager` -/
def maintain : ErrorCode × ServerManager × List ManagerEvent :=
  if o.lockMaintain ≠ .none then (o.lockMaintain, m, [])
  else
    let entryState := m.stateLocked
    let (err, maintenance) :=
      if m.server then (o.maintainServer, [ManagerEvent.maintainServer]) else (.none, [])
    let (err, m, events) := m.updateState o err
    let exitState := m.stateLocked
    let notification := if entryState ≠ exitState ∧ m.stateListener then [.notify exitState] else []
    (err, m, maintenance ++ events ++ notification)

end ServerManager

/-- The requests -/
inductive ManagerRequest where
  | start
  | stop
  | restart
  | shutdown
  deriving DecidableEq

/-- The wanted states that a request records. -/
def ManagerRequest.wanted : ManagerRequest → Bool × Bool
  | .start => (true, true)
  | .stop | .shutdown => (false, false)
  | .restart => (false, true)

/-- A call of one of the functions -/
inductive ManagerCall where
  | request (request : ManagerRequest)
  | maintain
  deriving DecidableEq

namespace ServerManager

/-- `start_managed_server`, `stop_managed_server`, `restart_managed_server` and
`shutdown_managed_server`: the wanted states are recorded by `update_wanted_state_and_maintain`,
which goes on to maintenance only then. -/
def request (r : ManagerRequest) (o : ManagerOutcomes) (m : ServerManager) :
    ErrorCode × ServerManager × List ManagerEvent :=
  let m := if r = .shutdown then { m with shutdown := true } else m
  let (err, m) := m.updateWantedState o r.wanted.1 r.wanted.2
  if err ≠ .none then (err, m, []) else m.maintain o

/-- A call and how it turns out -/
def perform (c : ManagerCall × ManagerOutcomes) (m : ServerManager) :
    ErrorCode × ServerManager × List ManagerEvent :=
  match c.1 with
  | .request r => m.request r c.2
  | .maintain => m.maintain c.2

/-- Calls one after the other -/
def run : List (ManagerCall × ManagerOutcomes) → ServerManager → ServerManager
  | [], m => m
  | c :: calls, m => run calls (m.perform c).2.1

/-- What happens during them -/
def events : List (ManagerCall × ManagerOutcomes) → ServerManager → List ManagerEvent
  | [], _ => []
  | c :: calls, m => (m.perform c).2.2 ++ events calls (m.perform c).2.1

/-- A request is recorded: `update_wanted_state` succeeds. -/
def records (c : ManagerCall × ManagerOutcomes) (m : ServerManager) : Bool :=
  match c.1 with
  | .request r =>
    (updateWantedState c.2 (if r = .shutdown then { m with shutdown := true } else m) r.wanted.1
      r.wanted.2).1 = .none
  | .maintain => false

/-- A request returns `ERROR_NONE`. -/
def returnsNone (c : ManagerCall × ManagerOutcomes) (m : ServerManager) : Bool :=
  match c.1 with
  | .request _ => (m.perform c).1 = .none
  | .maintain => false

/-- Whether a server is wanted in the end, as far as the successful requests say. -/
def wantedAfter (successful : ManagerCall × ManagerOutcomes → ServerManager → Bool)
    (c : ManagerCall × ManagerOutcomes) (m : ServerManager) (wanted : Bool) : Bool :=
  match c.1 with
  | .request r => if successful c m then r.wanted.2 else wanted
  | .maintain => wanted

/-- Whether the last successful request wants a server in the end; before the first one it is
`wanted`. -/
def lastWanted (successful : ManagerCall × ManagerOutcomes → ServerManager → Bool) :
    List (ManagerCall × ManagerOutcomes) → ServerManager → Bool → Bool
  | [], _, wanted => wanted
  | c :: calls, m, wanted =>
    lastWanted successful calls (m.perform c).2.1 (wantedAfter successful c m wanted)

end ServerManager

/-- Starts and stops of the server -/
def brackets (events : List ManagerEvent) : List Bracket :=
  events.filterMap fun
    | .startServer => some .opens
    | .stopServer => some .closes
    | _ => none

/-! ### What one call does -/

/-- What may become of the server during a call, with the starts and stops that lead there. -/
inductive Transition (allLicensesAccepted : Bool) : Bool → Bool → List Bracket → Prop
  | stays (server : Bool) : Transition allLicensesAccepted server server []
  | starts : allLicensesAccepted = true → Transition allLicensesAccepted false true [.opens]
  | stops : Transition allLicensesAccepted true false [.closes]

@[simp] theorem brackets_append (first second : List ManagerEvent) :
    brackets (first ++ second) = brackets first ++ brackets second :=
  List.filterMap_append

theorem opens_mem_brackets {events : List ManagerEvent} :
    .opens ∈ brackets events ↔ .startServer ∈ events := by
  unfold brackets
  rw [List.mem_filterMap]
  constructor
  · rintro ⟨event, hmem, h⟩
    cases event <;> first | exact hmem | cases h
  · intro hmem
    exact ⟨.startServer, hmem, rfl⟩

theorem closes_mem_brackets {events : List ManagerEvent} :
    .closes ∈ brackets events ↔ .stopServer ∈ events := by
  unfold brackets
  rw [List.mem_filterMap]
  constructor
  · rintro ⟨event, hmem, h⟩
    cases event <;> first | exact hmem | cases h
  · intro hmem
    exact ⟨.stopServer, hmem, rfl⟩

namespace ServerManager

variable {o : ManagerOutcomes} {m : ServerManager}

theorem doServerStart_transition (hserver : m.server = false) :
    Transition o.allLicensesAccepted m.server (m.doServerStart o).2.1.server
      (brackets (m.doServerStart o).2.2) := by
  unfold doServerStart
  split_ifs with haccepted hconfig
  · exact .stays m.server
  · exact .stays m.server
  · rw [hserver]
    exact .starts (by simpa using haccepted)

theorem doServerStop_transition (accepted : Bool) :
    Transition accepted m.server m.doServerStop.2.1.server (brackets m.doServerStop.2.2) := by
  unfold doServerStop
  split_ifs with hserver
  · exact .stays m.server
  · have hserver : m.server = true := by simpa using hserver
    rw [hserver]
    exact .stops

@[simp] theorem forward_server : m.forward.server = m.server := rfl

@[simp] theorem forward_changeState : m.forward.changeState = m.changeState := rfl

@[simp] theorem forward_wantedStateNext : m.forward.wantedStateNext = m.wantedStateNext := rfl

@[simp] theorem forward_shutdown : m.forward.shutdown = m.shutdown := rfl

/-- Once the first wanted state is passed over, what is wanted next differs from what there is,
unless there is nothing to do. -/
theorem forward_wantedStateFirst_ne (h : ¬ (m.forward.wantedStateFirst = m.wantedStateNext ∧
    m.server = m.forward.wantedStateFirst)) : m.forward.wantedStateFirst = !m.server := by
  unfold forward at h ⊢
  dsimp only at h ⊢
  split_ifs at h ⊢ with hfirst
  · exact Bool.eq_not.2 fun heq => h ⟨rfl, heq.symm⟩
  · exact Bool.eq_not.2 (Ne.symm hfirst)

/-- A transition is about the server and the need of an intervention. -/
theorem doTransition_keeps (o : ManagerOutcomes) (m : ServerManager) :
    (m.doTransition o).2.1.changeState = m.changeState ∧
      (m.doTransition o).2.1.wantedStateFirst = m.wantedStateFirst ∧
      (m.doTransition o).2.1.wantedStateNext = m.wantedStateNext ∧
      (m.doTransition o).2.1.shutdown = m.shutdown := by
  unfold doTransition doServerStart doServerStop
  split_ifs <;> exact ⟨rfl, rfl, rfl, rfl⟩

theorem doTransition_transition (h : m.wantedStateFirst = !m.server) :
    Transition o.allLicensesAccepted m.server (m.doTransition o).2.1.server
      (brackets (m.doTransition o).2.2) := by
  unfold doTransition
  split_ifs with hstart
  · exact doServerStart_transition (by simpa [hstart] using h)
  · exact doServerStop_transition o.allLicensesAccepted

/-- With the licenses accepted the wanted state is reached, unless the configuration cannot be
updated. -/
theorem doTransition_reaches (haccepted : o.allLicensesAccepted = true)
    (h : m.wantedStateFirst = !m.server) :
    ((m.doTransition o).1 = .none ∧ (m.doTransition o).2.1.server = m.wantedStateFirst) ∨
    (o.updateServerConfig ≠ .none ∧ (m.doTransition o).1 ≠ .none ∧
      (m.doTransition o).2.1.server = false ∧
      (m.doTransition o).2.1.userInterventionNeeded = true) := by
  unfold doTransition doServerStart doServerStop
  cases hserver : m.server with
  | true => exact .inl (by simp [h, hserver])
  | false =>
    by_cases hconfig : o.updateServerConfig = .none
    · exact .inl (by simp [h, hserver, haccepted, hconfig])
    · exact .inr (by simp [h, hserver, haccepted, hconfig])

/-- Nothing is to be done, the wanted state is there, or a transition is tried; after a transition
that succeeds, more is to be done only if the wanted states differ. -/
theorem updateState_cases (o : ManagerOutcomes) (m : ServerManager) (err : ErrorCode) :
    (m.changeState = false ∧ m.updateState o err = (err, m, [])) ∨
    (m.changeState = true ∧ m.forward.wantedStateFirst = m.wantedStateNext ∧
      m.server = m.wantedStateNext ∧
      m.updateState o err = (err, { m.forward with changeState := false }, [])) ∨
    (m.changeState = true ∧ m.forward.wantedStateFirst = !m.server ∧
      ∃ change, m.updateState o err = ((m.forward.doTransition o).1,
          { (m.forward.doTransition o).2.1 with changeState := change },
          (m.forward.doTransition o).2.2) ∧
        ((m.forward.doTransition o).1 = .none →
          change = (m.forward.wantedStateFirst != m.wantedStateNext)) ∧
        ((m.forward.doTransition o).1 ≠ .none →
          (m.forward.doTransition o).2.1.userInterventionNeeded = true → change = false)) := by
  cases hchange : m.changeState with
  | false => exact .inl ⟨rfl, by simp [updateState, hchange]⟩
  | true =>
    by_cases hstable : m.forward.wantedStateFirst = m.wantedStateNext ∧
        m.server = m.forward.wantedStateFirst
    · refine .inr (.inl ⟨rfl, hstable.1, hstable.2.trans hstable.1, ?_⟩)
      simp [updateState, hchange, hstable.1, hstable.2.trans hstable.1]
    have hkeeps := (doTransition_keeps o m.forward).1.trans hchange
    refine .inr (.inr ⟨rfl, forward_wantedStateFirst_ne hstable, ?_⟩)
    unfold updateState
    rw [if_neg (by simp [hchange])]
    have hgoOn : ¬ (!(m.forward.wantedStateFirst != m.forward.wantedStateNext) &&
        m.forward.server == m.forward.wantedStateFirst) = true := by
      simpa using hstable
    dsimp only
    rw [if_neg hgoOn]
    split_ifs with herr hgiveUp htoggles
    -- the transition fails, and the manager gives up or tries again
    · exact ⟨false, rfl, fun h => absurd h herr, fun _ _ => rfl⟩
    · refine ⟨true, ?_, fun h => absurd h herr, fun _ h => absurd h hgiveUp⟩
      rw [← hkeeps]
    -- it succeeds, and the second wanted state is another one or the same
    · refine ⟨true, ?_, fun _ => htoggles.symm, fun h => absurd h herr⟩
      rw [← hkeeps, ← not_not.1 herr]
    · refine ⟨false, ?_, fun _ => (Bool.eq_false_iff.2 htoggles).symm, fun _ _ => rfl⟩
      rw [← not_not.1 herr]

theorem updateState_transition (err : ErrorCode) :
    Transition o.allLicensesAccepted m.server (m.updateState o err).2.1.server
      (brackets (m.updateState o err).2.2) := by
  obtain ⟨-, h⟩ | ⟨-, -, -, h⟩ | ⟨-, hfirst, change, h, -, -⟩ := updateState_cases o m err
  · rw [h]
    exact .stays m.server
  · rw [h]
    exact .stays m.server
  · rw [h]
    exact doTransition_transition hfirst

/-- What is wanted in the end stays as it is during maintenance, and so does a pending shutdown. -/
theorem updateState_keeps (err : ErrorCode) :
    (m.updateState o err).2.1.wantedStateNext = m.wantedStateNext ∧
      (m.updateState o err).2.1.shutdown = m.shutdown := by
  obtain ⟨-, h⟩ | ⟨-, -, -, h⟩ | ⟨-, -, change, h, -, -⟩ := updateState_cases o m err
  · rw [h]
    exact ⟨rfl, rfl⟩
  · rw [h]
    exact ⟨rfl, rfl⟩
  · rw [h]
    exact (doTransition_keeps o m.forward).2.2

/-- Nothing happens without the lock; otherwise maintenance is the handling of state changes, with a
notification in the end. -/
theorem maintain_cases (o : ManagerOutcomes) (m : ServerManager) :
    (o.lockMaintain ≠ .none ∧ m.maintain o = (o.lockMaintain, m, [])) ∨
    (o.lockMaintain = .none ∧ ∃ err, err = (if m.server then o.maintainServer else .none) ∧
      (m.maintain o).1 = (m.updateState o err).1 ∧ (m.maintain o).2.1 = (m.updateState o err).2.1 ∧
      brackets (m.maintain o).2.2 = brackets (m.updateState o err).2.2) := by
  unfold maintain
  by_cases hlock : o.lockMaintain = .none
  · rw [if_neg (not_not.2 hlock)]
    cases m.server
    all_goals
      refine .inr ⟨hlock, _, rfl, rfl, rfl, ?_⟩
      dsimp only
      split_ifs <;> simp [brackets]
  · rw [if_pos hlock]
    exact .inl ⟨hlock, rfl⟩

theorem maintain_transition (o : ManagerOutcomes) (m : ServerManager) :
    Transition o.allLicensesAccepted m.server (m.maintain o).2.1.server
      (brackets (m.maintain o).2.2) := by
  obtain ⟨-, h⟩ | ⟨-, err, -, -, hstate, hevents⟩ := maintain_cases o m
  · rw [h]
    exact .stays m.server
  · rw [hstate, hevents]
    exact updateState_transition err

theorem maintain_keeps (o : ManagerOutcomes) (m : ServerManager) :
    (m.maintain o).2.1.wantedStateNext = m.wantedStateNext ∧
      (m.maintain o).2.1.shutdown = m.shutdown := by
  obtain ⟨-, h⟩ | ⟨-, err, -, -, hstate, -⟩ := maintain_cases o m
  · rw [h]
    exact ⟨rfl, rfl⟩
  · rw [hstate]
    exact updateState_keeps err

/-- The manager with the wanted states of a request recorded -/
def recorded (r : ManagerRequest) (m : ServerManager) : ServerManager :=
  { m with
    userInterventionNeeded := false
    changeState := true
    wantedStateFirst := r.wanted.1
    wantedStateNext := r.wanted.2
    shutdown := m.shutdown || r = .shutdown }

/-- Only the lock and a pending shutdown keep a request from being recorded. -/
theorem records_iff (r : ManagerRequest) (o : ManagerOutcomes) (m : ServerManager) :
    records (.request r, o) m = true ↔
      o.lockUpdate = .none ∧ (m.shutdown = true → r.wanted = (false, false)) := by
  unfold records updateWantedState
  by_cases hlock : o.lockUpdate = .none
  · cases hshutdown : m.shutdown <;> cases r <;> simp [hlock, hshutdown, ManagerRequest.wanted]
  · simp [hlock]

/-- A request that is not recorded leaves all as it is, but for a pending shutdown and an
intervention that is no longer waited for; maintenance follows only on one that is recorded. -/
theorem request_cases (r : ManagerRequest) (o : ManagerOutcomes) (m : ServerManager) :
    (records (.request r, o) m = false ∧ (m.request r o).1 ≠ .none ∧ (m.request r o).2.2 = [] ∧
      ∃ intervention, (m.request r o).2.1 =
        { m with
          userInterventionNeeded := intervention
          shutdown := m.shutdown || r = .shutdown }) ∨
    (records (.request r, o) m = true ∧ m.request r o = (recorded r m).maintain o) := by
  by_cases hlock : o.lockUpdate = .none
  · cases hshutdown : m.shutdown <;> cases r
    all_goals
      simp [records, request, updateWantedState, recorded, ManagerRequest.wanted, hlock, hshutdown]
  · refine .inl ⟨?_, ?_, ?_, m.userInterventionNeeded, ?_⟩
    all_goals cases r <;> simp [records, request, updateWantedState, hlock]

theorem perform_transition (c : ManagerCall × ManagerOutcomes) (m : ServerManager) :
    Transition c.2.allLicensesAccepted m.server (m.perform c).2.1.server
      (brackets (m.perform c).2.2) := by
  obtain ⟨call, o⟩ := c
  cases call with
  | maintain => exact maintain_transition o m
  | request r =>
    show Transition _ m.server (m.request r o).2.1.server (brackets (m.request r o).2.2)
    obtain ⟨-, -, hevents, intervention, hstate⟩ | ⟨-, h⟩ := request_cases r o m
    · rw [hstate, hevents]
      exact .stays m.server
    · rw [h]
      exact maintain_transition o (recorded r m)

/-! ### After a shutdown -/

/-- A shutdown is pending, and no server is wanted. -/
structure Blocked (m : ServerManager) : Prop where
  shutdown : m.shutdown = true
  first : m.wantedStateFirst = false
  next : m.wantedStateNext = false

theorem Blocked.forward (h : Blocked m) : m.forward.wantedStateFirst = false := by
  unfold ServerManager.forward
  simp [h.first, h.next]

theorem Blocked.updateState (h : Blocked m) (err : ErrorCode) :
    Blocked (m.updateState o err).2.1 := by
  obtain ⟨hnext, hshutdown⟩ := updateState_keeps (o := o) (m := m) err
  refine ⟨hshutdown.trans h.shutdown, ?_, hnext.trans h.next⟩
  obtain ⟨-, hstate⟩ | ⟨-, -, -, hstate⟩ | ⟨-, -, change, hstate, -, -⟩ := updateState_cases o m err
  · rw [hstate]
    exact h.first
  · rw [hstate]
    exact h.forward
  · rw [hstate]
    exact (doTransition_keeps o m.forward).2.1.trans h.forward

/-- The server is stopped unless there is nothing to be done. -/
theorem Blocked.updateState_server (h : Blocked m) (err : ErrorCode)
    (hstopped : m.changeState = false → m.server = false) :
    (m.updateState o err).2.1.server = false := by
  obtain ⟨hdone, hstate⟩ | ⟨-, -, hserver, hstate⟩ | ⟨-, hfirst, change, hstate, -, -⟩ :=
    updateState_cases o m err
  · rw [hstate]
    exact hstopped hdone
  · rw [hstate]
    exact hserver.trans h.next
  · rw [hstate]
    show (m.forward.doTransition o).2.1.server = false
    unfold doTransition doServerStop
    cases hserver : m.server <;> simp [h.forward, hserver]

theorem Blocked.maintain (h : Blocked m) (o : ManagerOutcomes) : Blocked (m.maintain o).2.1 := by
  obtain ⟨-, hm⟩ | ⟨-, err, -, -, hstate, -⟩ := maintain_cases o m
  · rw [hm]
    exact h
  · rw [hstate]
    exact h.updateState err

theorem Blocked.maintain_server (h : Blocked m) (o : ManagerOutcomes)
    (hserver : m.server = false) : (m.maintain o).2.1.server = false := by
  obtain ⟨-, hm⟩ | ⟨-, err, -, -, hstate, -⟩ := maintain_cases o m
  · rw [hm]
    exact hserver
  · rw [hstate]
    exact h.updateState_server err fun _ => hserver

/-- After a recorded shutdown, and whatever is recorded while one is pending. -/
theorem blocked_recorded {r : ManagerRequest} (hrecords : records (.request r, o) m = true)
    (h : r = .shutdown ∨ m.shutdown = true) : Blocked (recorded r m) := by
  have hwanted : r.wanted = (false, false) := by
    obtain rfl | hshutdown := h
    · rfl
    · exact ((records_iff r o m).1 hrecords).2 hshutdown
  refine ⟨?_, congrArg Prod.fst hwanted, congrArg Prod.snd hwanted⟩
  show (m.shutdown || r = .shutdown) = true
  obtain rfl | hshutdown := h
  · simp
  · simp [hshutdown]

theorem Blocked.perform (h : Blocked m) (c : ManagerCall × ManagerOutcomes) :
    Blocked (m.perform c).2.1 := by
  obtain ⟨call, o⟩ := c
  cases call with
  | maintain => exact h.maintain o
  | request r =>
    show Blocked (m.request r o).2.1
    obtain ⟨-, -, -, intervention, hstate⟩ | ⟨hrecords, hm⟩ := request_cases r o m
    · rw [hstate]
      exact ⟨by simp [h.shutdown], h.first, h.next⟩
    · rw [hm]
      exact (blocked_recorded hrecords (.inr h.shutdown)).maintain o

theorem Blocked.run (h : Blocked m) (calls : List (ManagerCall × ManagerOutcomes)) :
    Blocked (run calls m) := by
  induction calls generalizing m with
  | nil => exact h
  | cons c calls ih => exact ih (h.perform c)

theorem Blocked.perform_server (h : Blocked m) (c : ManagerCall × ManagerOutcomes)
    (hserver : m.server = false) : (m.perform c).2.1.server = false := by
  obtain ⟨call, o⟩ := c
  cases call with
  | maintain => exact h.maintain_server o hserver
  | request r =>
    show (m.request r o).2.1.server = false
    obtain ⟨-, -, -, intervention, hstate⟩ | ⟨hrecords, hm⟩ := request_cases r o m
    · rw [hstate]
      exact hserver
    · rw [hm]
      exact (blocked_recorded hrecords (.inr h.shutdown)).maintain_server o hserver

/-- A shutdown request that gets the lock is recorded. -/
theorem perform_shutdown (o : ManagerOutcomes) (m : ServerManager) (hlock : o.lockUpdate = .none) :
    m.perform (.request .shutdown, o) = (recorded .shutdown m).maintain o := by
  obtain ⟨hrecords, -⟩ | ⟨-, h⟩ := request_cases .shutdown o m
  · have hiff := (records_iff .shutdown o m).2 ⟨hlock, fun _ => rfl⟩
    rw [hrecords] at hiff
    cases hiff
  · exact h

theorem blocked_perform_shutdown (o : ManagerOutcomes) (m : ServerManager)
    (hlock : o.lockUpdate = .none) : Blocked (m.perform (.request .shutdown, o)).2.1 := by
  have hrecords := (records_iff .shutdown o m).2 ⟨hlock, fun _ => rfl⟩
  rw [perform_shutdown o m hlock]
  exact (blocked_recorded hrecords (.inl rfl)).maintain o

/-- The call that starts a server finds none and has the licenses accepted. -/
theorem startServer_mem {c : ManagerCall × ManagerOutcomes}
    (h : .startServer ∈ (m.perform c).2.2) : m.server = false ∧ (m.perform c).2.1.server = true ∧
      c.2.allLicensesAccepted = true := by
  have hopens := opens_mem_brackets.2 h
  have ht := perform_transition c m
  generalize hserver : m.server = server, hserver' : (m.perform c).2.1.server = server',
    hbrackets : brackets (m.perform c).2.2 = actions at ht hopens ⊢
  cases ht with
  | stays => simp at hopens
  | starts haccepted => exact ⟨rfl, rfl, haccepted⟩
  | stops => simp at hopens

theorem stopServer_mem {c : ManagerCall × ManagerOutcomes}
    (h : .stopServer ∈ (m.perform c).2.2) : m.server = true := by
  have hcloses := closes_mem_brackets.2 h
  have ht := perform_transition c m
  generalize hserver : m.server = server, hserver' : (m.perform c).2.1.server = server',
    hbrackets : brackets (m.perform c).2.2 = actions at ht hcloses ⊢
  cases ht with
  | stays => simp at hcloses
  | starts => simp at hcloses
  | stops => rfl

theorem run_append (first second : List (ManagerCall × ManagerOutcomes)) (m : ServerManager) :
    run (first ++ second) m = run second (run first m) := by
  induction first generalizing m with
  | nil => rfl
  | cons c first ih => exact ih _

/-- No server is started after a shutdown request that got the lock. -/
theorem startServer_not_mem_of_shutdown {before : List (ManagerCall × ManagerOutcomes)}
    {c d : ManagerCall × ManagerOutcomes} (hd : d ∈ before ++ [c])
    (hshutdown : d.1 = .request .shutdown) (hlock : d.2.lockUpdate = .none) :
    .startServer ∉ ((ServerManager.run before m).perform c).2.2 := by
  intro hstart
  obtain ⟨hserver, hserver', -⟩ := startServer_mem hstart
  obtain ⟨call, o⟩ := d
  obtain rfl : call = .request .shutdown := hshutdown
  have hstopped : ((ServerManager.run before m).perform c).2.1.server = false := by
    rcases List.mem_append.1 hd with hbefore | hlast
    · obtain ⟨early, late, rfl⟩ := List.append_of_mem hbefore
      refine Blocked.perform_server ?_ c hserver
      rw [run_append]
      exact (blocked_perform_shutdown o _ hlock).run late
    · obtain rfl : (ManagerCall.request .shutdown, o) = c := by simpa using hlast
      have hrecords := (records_iff .shutdown o (ServerManager.run before m)).2
          ⟨hlock, fun _ => rfl⟩
      rw [perform_shutdown o _ hlock]
      exact (blocked_recorded hrecords (.inl rfl)).maintain_server o hserver
  rw [hstopped] at hserver'
  cases hserver'

/-! ### Starts and stops over a run -/

theorem run_alternates (calls : List (ManagerCall × ManagerOutcomes)) (m : ServerManager)
    {past : List Bracket} (halternating : Alternating past)
    (hopen : IsOpen past ↔ m.server = true) :
    Alternating (past ++ brackets (events calls m)) ∧
      (IsOpen (past ++ brackets (events calls m)) ↔ (ServerManager.run calls m).server = true) := by
  induction calls generalizing m past with
  | nil => simpa [events, brackets] using ⟨halternating, hopen⟩
  | cons c calls ih =>
    have ht := perform_transition c m
    have hnext : Alternating (past ++ brackets (m.perform c).2.2) ∧
        (IsOpen (past ++ brackets (m.perform c).2.2) ↔ (m.perform c).2.1.server = true) := by
      generalize hserver : m.server = server, (m.perform c).2.1.server = server',
        brackets (m.perform c).2.2 = actions at ht hopen ⊢
      cases ht with
      | stays => simpa using ⟨halternating, hopen⟩
      | starts => exact ⟨halternating.opens (by simp [hopen]), by simp⟩
      | stops => exact ⟨halternating.closes (by simp [hopen]), by simp⟩
    have hrest := ih (m.perform c).2.1 hnext.1 hnext.2
    rwa [List.append_assoc, ← brackets_append] at hrest

/-- What follows while a server runs begins with a stop. -/
theorem head_events_ne_opens (calls : List (ManagerCall × ManagerOutcomes))
    (hserver : m.server = true) : (brackets (events calls m)).head? ≠ some .opens := by
  have hpast : Alternating [.opens] := by decide
  have hrun := run_alternates calls m hpast (by simp [Lib.IsOpen, hserver])
  have hchain := (List.isChain_append.1 hrun.1.1).2.2
  intro hhead
  exact hchain .opens rfl .opens hhead rfl

theorem restart_closes {o : ManagerOutcomes} (hserver : m.server = true)
    (hrecords : records (.request .restart, o) m = true) (hlock : o.lockMaintain = .none) :
    brackets (m.perform (.request .restart, o)).2.2 = [.closes] := by
  obtain ⟨hnot, -⟩ | ⟨-, hm⟩ := request_cases .restart o m
  · rw [hrecords] at hnot
    cases hnot
  have hfirst : (recorded .restart m).forward.wantedStateFirst = false := by
    simp [ServerManager.forward, recorded, ManagerRequest.wanted, hserver]
  show brackets (m.request .restart o).2.2 = [.closes]
  rw [hm]
  obtain ⟨hlocked, -⟩ | ⟨-, err, -, -, -, hevents⟩ := maintain_cases o (recorded .restart m)
  · exact absurd hlock hlocked
  rw [hevents]
  obtain ⟨hdone, -⟩ | ⟨-, hsame, -, -⟩ | ⟨-, -, change, hstate, -, -⟩ :=
    updateState_cases o (recorded .restart m) err
  · cases hdone
  · rw [hfirst] at hsame
    cases hsame
  · rw [hstate]
    have hrunning : (recorded .restart m).server = true := hserver
    simp [doTransition, doServerStop, hfirst, hrunning, brackets]

/-! ### Where the requests lead -/

/-- The locks are there, and the licenses are accepted. -/
structure Favourable (o : ManagerOutcomes) : Prop where
  lockUpdate : o.lockUpdate = .none
  lockMaintain : o.lockMaintain = .none
  accepted : o.allLicensesAccepted = true

/-- Nothing is to be done any more: the server is as it is wanted, or the manager has given up
starting it for lack of a configuration (`failed`). -/
structure Settled (failed : Prop) (m : ServerManager) : Prop where
  changeState : m.changeState = false
  server : m.server = m.wantedStateNext ∨
    failed ∧ m.server = false ∧ m.userInterventionNeeded = true

variable {failed : Prop}

theorem Settled.maintain (h : Settled failed m) (o : ManagerOutcomes) :
    Settled failed (m.maintain o).2.1 := by
  obtain ⟨-, hm⟩ | ⟨-, err, -, -, hstate, -⟩ := maintain_cases o m
  · rw [hm]
    exact h
  · rw [hstate]
    simpa [updateState, h.changeState] using h

/-- One round of maintenance is enough, or the server is in the first state that is wanted. -/
theorem maintain_settles (ho : Favourable o) (hfailed : o.updateServerConfig ≠ .none → failed)
    (hchange : m.changeState = true) :
    Settled failed (m.maintain o).2.1 ∨
      ((m.maintain o).2.1.changeState = true ∧
        (m.maintain o).2.1.server = (m.maintain o).2.1.wantedStateFirst ∧
        m.forward.wantedStateFirst ≠ m.wantedStateNext) := by
  obtain ⟨hlocked, -⟩ | ⟨-, err, -, -, hmaintain, -⟩ := maintain_cases o m
  · exact absurd ho.lockMaintain hlocked
  rw [hmaintain]
  obtain ⟨hdone, -⟩ | ⟨-, -, hserver, hstate⟩ | ⟨-, hfirst, change, hstate, hmore, hgiveUp⟩ :=
    updateState_cases o m err
  · rw [hchange] at hdone
    cases hdone
  · rw [hstate]
    exact .inl ⟨rfl, .inl hserver⟩
  · obtain ⟨-, hkeepsFirst, hkeepsNext, -⟩ := doTransition_keeps o m.forward
    rw [hstate]
    obtain ⟨hok, hreached⟩ | ⟨hconfig, herr, hserver, hintervention⟩ :=
      doTransition_reaches ho.accepted hfirst
    · by_cases hsame : m.forward.wantedStateFirst = m.wantedStateNext
      · refine .inl ⟨?_, .inl ?_⟩
        · simp [hmore hok, hsame]
        · exact hreached.trans (hsame.trans hkeepsNext.symm)
      · refine .inr ⟨?_, hreached.trans hkeepsFirst.symm, hsame⟩
        simp [hmore hok, hsame]
    · exact .inl ⟨hgiveUp herr hintervention, .inr ⟨hfailed hconfig, hserver, hintervention⟩⟩

/-- After any maintenance at all, one more round is enough. -/
theorem maintain_maintain_settles {o' : ManagerOutcomes} (ho : Favourable o) (ho' : Favourable o')
    (hfailed : o.updateServerConfig ≠ .none → failed)
    (hfailed' : o'.updateServerConfig ≠ .none → failed) (hchange : m.changeState = true) :
    Settled failed ((m.maintain o).2.1.maintain o').2.1 := by
  obtain hsettled | ⟨hchange', hserver, -⟩ := maintain_settles ho hfailed hchange
  · exact hsettled.maintain o'
  · obtain hsettled | ⟨-, -, hne⟩ := maintain_settles ho' hfailed' hchange'
    · exact hsettled
    · exact absurd (by simp [ServerManager.forward, hserver]) hne

/-- Maintenance returns what the transition does, or what the maintenance of the server does when
there is none. -/
theorem maintain_returns (hlock : o.lockMaintain = .none) (hchange : m.changeState = true)
    (hserver : m.server = m.wantedStateNext →
      (if m.server then o.maintainServer else .none) = ErrorCode.none)
    (htransition : m.forward.wantedStateFirst = (!m.server) →
      (m.forward.doTransition o).1 = .none) :
    (m.maintain o).1 = .none := by
  obtain ⟨hlocked, -⟩ | ⟨-, err, rfl, hreturns, -, -⟩ := maintain_cases o m
  · exact absurd hlock hlocked
  rw [hreturns]
  obtain ⟨hdone, -⟩ | ⟨-, -, hreached, hstate⟩ | ⟨-, hfirst, change, hstate, -, -⟩ :=
    updateState_cases o m (if m.server then o.maintainServer else .none)
  · rw [hchange] at hdone
    cases hdone
  · rw [hstate]
    exact hserver hreached
  · rw [hstate]
    exact htransition hfirst

theorem Blocked.maintain_returns (h : Blocked m) (hlock : o.lockMaintain = .none)
    (hchange : m.changeState = true) : (m.maintain o).1 = .none := by
  refine ServerManager.maintain_returns hlock hchange (fun hserver => ?_) fun _ => ?_
  · simp [hserver, h.next]
  · unfold doTransition doServerStop
    cases hserver : m.server <;> simp [h.forward, hserver]

theorem Blocked.maintain_stopped (h : Blocked m) (o : ManagerOutcomes)
    (hstopped : m.changeState = false → m.server = false) :
    (m.maintain o).2.1.changeState = false → (m.maintain o).2.1.server = false := by
  obtain ⟨-, hm⟩ | ⟨-, err, -, -, hstate, -⟩ := maintain_cases o m
  · rw [hm]
    exact hstopped
  · rw [hstate]
    exact fun _ => h.updateState_server err hstopped

/-- A shutdown request gets the locks, the one for the wanted state and the one for maintenance. -/
def Undisturbed (c : ManagerCall × ManagerOutcomes) : Prop :=
  c.1 = .request .shutdown → c.2.lockUpdate = .none ∧ c.2.lockMaintain = .none

/-- The server configuration could not be updated in one of the calls. -/
def Unconfigured (calls : List (ManagerCall × ManagerOutcomes)) : Prop :=
  ∃ c ∈ calls, c.2.updateServerConfig ≠ .none

/-- The manager aims at what the last recorded request wants (`wanted`), and no server is left or
wanted once a shutdown is pending (nor by the last request that returned without error,
`wantedReturned`). -/
structure Orderly (wanted wantedReturned : Bool) (m : ServerManager) : Prop where
  next : m.wantedStateNext = wanted
  blocked : m.shutdown = true → Blocked m
  stopped : m.shutdown = true → m.changeState = false → m.server = false
  unwanted : m.shutdown = true → wantedReturned = false

variable {wanted wantedReturned : Bool}

theorem Orderly.maintain (h : Orderly wanted wantedReturned m) (o : ManagerOutcomes) :
    Orderly wanted wantedReturned (m.maintain o).2.1 := by
  obtain ⟨hnext, hshutdown⟩ := maintain_keeps o m
  refine ⟨hnext.trans h.next, fun hs => ?_, fun hs => ?_, fun hs => ?_⟩
  all_goals rw [hshutdown] at hs
  · exact (h.blocked hs).maintain o
  · exact (h.blocked hs).maintain_stopped o (h.stopped hs)
  · exact h.unwanted hs

theorem Orderly.perform (h : Orderly wanted wantedReturned m) {c : ManagerCall × ManagerOutcomes}
    (hc : Undisturbed c) :
    Orderly (wantedAfter records c m wanted) (wantedAfter returnsNone c m wantedReturned)
      (m.perform c).2.1 := by
  obtain ⟨call, o⟩ := c
  cases call with
  | maintain => exact h.maintain o
  | request r =>
    show Orderly (if records (.request r, o) m then r.wanted.2 else wanted)
      (if returnsNone (.request r, o) m then r.wanted.2 else wantedReturned) (m.request r o).2.1
    obtain ⟨hrecords, hreturns, -, intervention, hstate⟩ | ⟨hrecords, hm⟩ := request_cases r o m
    · have hreturns : returnsNone (.request r, o) m = false := decide_eq_false hreturns
      -- a shutdown request would have been recorded
      have hr : r ≠ .shutdown := by
        rintro rfl
        rw [(records_iff .shutdown o m).2 ⟨(hc rfl).1, fun _ => rfl⟩] at hrecords
        cases hrecords
      rw [hrecords, hreturns, hstate]
      have hshutdown : (m.shutdown || r = .shutdown) = m.shutdown := by simp [hr]
      rw [hshutdown]
      refine ⟨h.next, fun hs => ?_, h.stopped, h.unwanted⟩
      exact ⟨hs, (h.blocked hs).first, (h.blocked hs).next⟩
    · have hblocked : (recorded r m).shutdown = true → Blocked (recorded r m) := by
        intro hs
        refine blocked_recorded hrecords ?_
        simpa [recorded, or_comm] using hs
      have hrecorded : Orderly r.wanted.2
          (if returnsNone (.request r, o) m then r.wanted.2 else wantedReturned)
            (recorded r m) := by
        refine ⟨rfl, hblocked, fun _ h => (nomatch h), fun hs => ?_⟩
        split_ifs with hreturns
        · exact (hblocked hs).next
        · have hs : m.shutdown = true ∨ r = .shutdown := by simpa [recorded] using hs
          rcases hs with hpending | rfl
          · exact h.unwanted hpending
          · refine absurd (decide_eq_true ?_) hreturns
            show (m.request .shutdown o).1 = .none
            rw [hm]
            exact (hblocked hs).maintain_returns (hc rfl).2 rfl
      rw [hrecords, hm]
      exact hrecorded.maintain o

theorem Orderly.run {calls : List (ManagerCall × ManagerOutcomes)}
    (h : Orderly wanted wantedReturned m) (hcalls : ∀ c ∈ calls, Undisturbed c) :
    Orderly (lastWanted records calls m wanted) (lastWanted returnsNone calls m wantedReturned)
      (run calls m) := by
  induction calls generalizing m wanted wantedReturned with
  | nil => exact h
  | cons c calls ih =>
    exact ih (h.perform (hcalls c (by simp))) fun d hd => hcalls d (by simp [hd])

theorem lastWanted_append (successful : ManagerCall × ManagerOutcomes → ServerManager → Bool)
    (first second : List (ManagerCall × ManagerOutcomes)) (m : ServerManager) (wanted : Bool) :
    lastWanted successful (first ++ second) m wanted =
      lastWanted successful second (run first m) (lastWanted successful first m wanted) := by
  induction first generalizing m wanted with
  | nil => rfl
  | cons c first ih => exact ih _ _

/-- Maintenance alone keeps what is wanted, and what is settled. -/
theorem Settled.run_maintain {calls : List (ManagerCall × ManagerOutcomes)}
    (h : Settled failed m) (hcalls : ∀ c ∈ calls, c.1 = .maintain) :
    Settled failed (run calls m) := by
  induction calls generalizing m with
  | nil => exact h
  | cons c calls ih =>
    obtain ⟨call, o⟩ := c
    obtain rfl : call = .maintain := hcalls (call, o) (by simp)
    exact ih (h.maintain o) fun d hd => hcalls d (by simp [hd])

theorem lastWanted_maintain (successful : ManagerCall × ManagerOutcomes → ServerManager → Bool)
    {calls : List (ManagerCall × ManagerOutcomes)} (hcalls : ∀ c ∈ calls, c.1 = .maintain)
    (m : ServerManager) (wanted : Bool) : lastWanted successful calls m wanted = wanted := by
  induction calls generalizing m with
  | nil => rfl
  | cons c calls ih =>
    obtain ⟨call, o⟩ := c
    obtain rfl : call = .maintain := hcalls (call, o) (by simp)
    exact ih (fun d hd => hcalls d (by simp [hd])) _

theorem Blocked.maintain_settles (h : Blocked m)
    (hstopped : m.changeState = false → m.server = false) (ho : Favourable o)
    (hfailed : o.updateServerConfig ≠ .none → failed) : Settled failed (m.maintain o).2.1 := by
  cases hchange : m.changeState with
  | false =>
    have hsettled : Settled failed m := ⟨hchange, .inl ((hstopped hchange).trans h.next.symm)⟩
    exact hsettled.maintain o
  | true =>
    obtain hsettled | ⟨-, -, hne⟩ := ServerManager.maintain_settles ho hfailed hchange
    · exact hsettled
    · exact absurd (h.forward.trans h.next.symm) hne

/-- A request and one round of maintenance settle an orderly manager. -/
theorem Orderly.request_maintain_settles {o' : ManagerOutcomes}
    (h : Orderly wanted wantedReturned m)
    (r : ManagerRequest) (ho : Favourable o) (ho' : Favourable o')
    (hfailed : o.updateServerConfig ≠ .none → failed)
    (hfailed' : o'.updateServerConfig ≠ .none → failed) :
    Settled failed ((m.request r o).2.1.maintain o').2.1 := by
  obtain ⟨hrecords, -, -, intervention, hstate⟩ | ⟨-, hm⟩ := request_cases r o m
  · -- only a pending shutdown refuses the request
    have hshutdown : m.shutdown = true := by
      by_contra hnot
      rw [(records_iff r o m).2 ⟨ho.lockUpdate, fun hs => absurd hs hnot⟩] at hrecords
      cases hrecords
    have hblocked := h.blocked hshutdown
    rw [hstate]
    refine Blocked.maintain_settles ⟨?_, hblocked.first, hblocked.next⟩ (h.stopped hshutdown) ho'
      hfailed'
    simp [hshutdown]
  · rw [hm]
    exact maintain_maintain_settles ho ho' hfailed hfailed' rfl

/-- A request that gets the locks and finds the licenses and the configuration returns without error
when it is recorded. -/
theorem request_returns (r : ManagerRequest) (ho : Favourable o)
    (hconfig : o.updateServerConfig = .none) (hmaintain : o.maintainServer = .none)
    (hrecords : records (.request r, o) m = true) : returnsNone (.request r, o) m = true := by
  refine decide_eq_true ?_
  show (m.request r o).1 = .none
  obtain ⟨hnot, -⟩ | ⟨-, hm⟩ := request_cases r o m
  · rw [hrecords] at hnot
    cases hnot
  rw [hm]
  refine maintain_returns ho.lockMaintain rfl (fun _ => ?_) fun hfirst => ?_
  · split_ifs
    · exact hmaintain
    · rfl
  · obtain ⟨hok, -⟩ | ⟨hfail, -⟩ := doTransition_reaches ho.accepted hfirst
    · exact hok
    · exact absurd hconfig hfail

/-- With the request that came last in mind, it does not matter which requests count as
successful. -/
theorem Orderly.lastWanted_eq {before maintenance : List (ManagerCall × ManagerOutcomes)}
    {r : ManagerRequest} (h : Orderly wanted wantedReturned m)
    (hcalls : ∀ c ∈ before ++ (.request r, o) :: maintenance, Undisturbed c)
    (hmaintain : ∀ c ∈ maintenance, c.1 = .maintain) (ho : Favourable o)
    (hconfig : o.updateServerConfig = .none) (herror : o.maintainServer = .none) :
    lastWanted records (before ++ (.request r, o) :: maintenance) m wanted =
      lastWanted returnsNone (before ++ (.request r, o) :: maintenance) m wantedReturned := by
  have hbefore : Orderly _ _ (ServerManager.run before m) :=
    h.run fun c hc => hcalls c (List.mem_append_left _ hc)
  cases hrecords : records (.request r, o) (ServerManager.run before m) with
  | true =>
    have hreturns := request_returns r ho hconfig herror hrecords
    simp only [lastWanted_append, lastWanted, lastWanted_maintain _ hmaintain,
      wantedAfter, hrecords, hreturns, if_true]
  | false =>
    have hshutdown : (ServerManager.run before m).shutdown = true := by
      by_contra hnot
      rw [(records_iff r o _).2 ⟨ho.lockUpdate, fun hs => absurd hs hnot⟩] at hrecords
      cases hrecords
    have hblocked := (hbefore.blocked hshutdown).run ((.request r, o) :: maintenance)
    rw [← run_append] at hblocked
    have hafter := h.run hcalls
    rw [hafter.unwanted hblocked.shutdown, ← hafter.next]
    exact hblocked.next

end ServerManager

theorem orderly_createServerManager (stateListener : Bool) :
    ServerManager.Orderly false false (createServerManager stateListener) :=
  ⟨rfl, fun h => (nomatch h), fun h => (nomatch h), fun _ => rfl⟩

open ServerManager in
/-- Over any calls, from the creation of the manager on, with any outcomes of each call:

* starts and stops of the server alternate, and there is a server exactly after a start;
* the server is started only where none exists, while all licenses are accepted, and not after a
  shutdown request that got the lock; it is stopped only where it exists;
* what follows on a restart while a server runs does not begin with a start, and if the restart is
  recorded and maintenance gets the lock, it stops the server;
* if, from the last request on, the licenses are accepted and the locks are there, then after that
  request and at least one round of maintenance nothing is left to change, and there is a server
  exactly if the last recorded request wants one; but where the configuration cannot be updated the
  manager may have given up, without a server and waiting for an intervention.  Where the
  configuration can be updated and the running server does not fail, the last request that returned
  without error wants the same.  Shutdown requests before got the locks. -/
theorem managedServer_obeys_requests (stateListener : Bool)
    (calls : List (ManagerCall × ManagerOutcomes)) :
    let m := createServerManager stateListener
    Alternating (brackets (events calls m)) ∧
    (IsOpen (brackets (events calls m)) ↔ (run calls m).server = true) ∧
    (∀ before c after, calls = before ++ c :: after →
      (.startServer ∈ ((run before m).perform c).2.2 →
        (run before m).server = false ∧ c.2.allLicensesAccepted = true ∧
        ∀ d ∈ before ++ [c], d.1 = .request .shutdown → d.2.lockUpdate ≠ .none) ∧
      (.stopServer ∈ ((run before m).perform c).2.2 → (run before m).server = true) ∧
      (c.1 = .request .restart → (run before m).server = true →
        (brackets (events (c :: after) (run before m))).head? ≠ some .opens ∧
        (records c (run before m) = true → c.2.lockMaintain = .none →
          brackets ((run before m).perform c).2.2 = [.closes]))) ∧
    (∀ before r o maintenance, calls = before ++ (.request r, o) :: maintenance →
      maintenance ≠ [] → (∀ c ∈ maintenance, c.1 = .maintain) → (∀ c ∈ before, Undisturbed c) →
      (∀ c ∈ (.request r, o) :: maintenance, Favourable c.2) →
      (run calls m).changeState = false ∧
      ((run calls m).server = lastWanted records calls m false ∨
        Unconfigured ((.request r, o) :: maintenance) ∧ (run calls m).server = false ∧
          (run calls m).userInterventionNeeded = true) ∧
      (¬ Unconfigured ((.request r, o) :: maintenance) → o.maintainServer = .none →
        (run calls m).server = lastWanted returnsNone calls m false)) := by
  intro m
  have horderly : Orderly false false m := orderly_createServerManager stateListener
  have hserver : m.server = false := rfl
  clear_value m
  have hrun := run_alternates calls m alternating_nil (by simp [hserver])
  refine ⟨hrun.1, hrun.2, ?_, ?_⟩
  · rintro before c after rfl
    refine ⟨fun hstart => ?_, stopServer_mem, fun hrestart hrunning =>
      ⟨?_, fun hrecords hlock => ?_⟩⟩
    · obtain ⟨hnone, -, haccepted⟩ := startServer_mem hstart
      exact ⟨hnone, haccepted, fun d hd hshutdown hlock =>
        startServer_not_mem_of_shutdown hd hshutdown hlock hstart⟩
    · exact head_events_ne_opens (c :: after) hrunning
    · obtain ⟨call, o⟩ := c
      obtain rfl : call = .request .restart := hrestart
      exact restart_closes hrunning hrecords hlock
  · rintro before r o maintenance rfl hsome hmaintain hbefore hfavourable
    have ho : Favourable o := hfavourable _ (List.mem_cons_self ..)
    have hall : ∀ c ∈ before ++ (.request r, o) :: maintenance, Undisturbed c := by
      intro c hc _
      rcases List.mem_append.1 hc with hc | hc
      · exact hbefore c hc ‹_›
      · exact ⟨(hfavourable c hc).lockUpdate, (hfavourable c hc).lockMaintain⟩
    have hnext := (horderly.run hall).next
    have hsettled : Settled (Unconfigured ((.request r, o) :: maintenance))
        (run (before ++ (.request r, o) :: maintenance) m) := by
      obtain _ | ⟨⟨call, o'⟩, rest⟩ := maintenance
      · exact absurd rfl hsome
      obtain rfl : call = .maintain := hmaintain (call, o') (by simp)
      have htwo : Settled (Unconfigured ((.request r, o) :: (.maintain, o') :: rest))
          (((run before m).request r o).2.1.maintain o').2.1 :=
        (horderly.run hbefore).request_maintain_settles r ho (hfavourable (.maintain, o') (by simp))
          (fun h => ⟨(.request r, o), by simp, h⟩) (fun h => ⟨(.maintain, o'), by simp, h⟩)
      rw [run_append]
      exact htwo.run_maintain fun c hc => hmaintain c (by simp [hc])
    refine ⟨hsettled.changeState, ?_, fun hconfig herror => ?_⟩
    · rw [← hnext]
      exact hsettled.server
    · have hconfigured : o.updateServerConfig = .none := by
        by_contra hfail
        exact hconfig ⟨(.request r, o), List.mem_cons_self .., hfail⟩
      rw [← horderly.lastWanted_eq hall hmaintain ho hconfigured herror, ← hnext]
      obtain hwanted | ⟨hfail, -⟩ := hsettled.server
      · exact hwanted
      · exact absurd hfail hconfig

/-- Calls that succeed -/
def ManagerOutcomes.success : ManagerOutcomes := ⟨.none, .none, true, .none, .none⟩

/-- A server is started and started anew; the restart takes one further round of maintenance. -/
theorem managedServer_obeys_requests_of_restart :
    (ServerManager.run [(.request .start, .success), (.request .restart, .success),
      (.maintain, .success)] (createServerManager false)).changeState = false ∧
    (ServerManager.run [(.request .start, .success), (.request .restart, .success),
      (.maintain, .success)] (createServerManager false)).server = true := by
  have hobeys := (managedServer_obeys_requests false [(.request .start, .success),
    (.request .restart, .success), (.maintain, .success)]).2.2.2
      [(.request .start, .success)] .restart
    .success [(.maintain, .success)] rfl (by decide) (by decide)
      (by simp [ServerManager.Undisturbed])
    (by
      intro c hc
      have hc : c.2 = .success := by
        simp only [List.mem_cons, List.not_mem_nil, or_false] at hc
        obtain rfl | rfl := hc <;> rfl
      rw [hc]
      exact ⟨rfl, rfl, rfl⟩)
  exact ⟨hobeys.1,
    (hobeys.2.2 (by simp [ServerManager.Unconfigured, ManagerOutcomes.success]) rfl).trans
    (by decide)⟩

/-- A restart that has stopped the server and finds no configuration then: every request returned
without error, and nothing is left to change, but there is no server. -/
theorem managedServer_not_restarted :
    (∀ c ∈ [(ManagerCall.request .start, ManagerOutcomes.success), (.request .restart, .success),
      (.maintain, ⟨.none, .none, true, .unspecific, .none⟩)], c.2.allLicensesAccepted = true ∧
        c.2.lockUpdate = .none ∧ c.2.lockMaintain = .none) ∧
    (ServerManager.run [(.request .start, .success), (.request .restart, .success)]
      (createServerManager false)).changeState = true ∧
    ServerManager.lastWanted ServerManager.returnsNone [(.request .start, .success),
      (.request .restart, .success), (.maintain, ⟨.none, .none, true, .unspecific, .none⟩)]
      (createServerManager false) false = true ∧
    (ServerManager.run [(.request .start, .success), (.request .restart, .success),
      (.maintain, ⟨.none, .none, true, .unspecific, .none⟩)] (createServerManager false)).server =
        false := by
  decide

end XprcServer
