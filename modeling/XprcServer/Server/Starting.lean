import XprcServer.Lib.System
import XprcServer.Server.Manager

/-!
# Starting the server

`start_server` builds the server in the very pointer by which the server manager tells whether there
is one.  Each of its steps can fail, and each failure takes back what the steps before it have done
in its own way; the failures of `mtx_init` and of `create_list` leave the pointer on what has been
built so far.

* `ServerSlot.startServer_cases` : what a start leaves in memory and in the pointer;
* `managesCompleteServers` : without these two failures the pointer always leads to a complete
  server, and no other server exists;
* `liveServer_refines` : where no start is left half-way, the manager is the one whose starts
  succeed, with a start that fails as one that the licenses forbid;
* `startManagedServer_retries` : a start is tried again until it succeeds.
-/

namespace XprcServer

open Lib

/-- The parts of a `server_t` that have to be built. -/
structure ServerParts where
  mutex : Bool
  sessions : Bool
  password : Bool
  network : Bool
  deriving DecidableEq

/-- What `zmalloc` provides -/
def ServerParts.zeroed : ServerParts := ⟨false, false, false, false⟩

/-- A completely started server -/
def ServerParts.complete : ServerParts := ⟨true, true, true, true⟩

/-- Which steps of a call of `start_server` succeed. -/
structure StartOutcomes where
  validatePassword : Bool
  zmalloc : Bool
  mtxInit : Bool
  createList : Bool
  copyString : Bool
  createNetworkServer : ErrorCode
  deriving DecidableEq

/-- The servers that have been allocated, `none` once freed, and the pointer to the one in use. -/
structure ServerSlot where
  memory : List (Option ServerParts)
  server : Option ℕ
  deriving DecidableEq

namespace ServerSlot

/-- What a pointer leads to. -/
def load (s : ServerSlot) (address : ℕ) : Option ServerParts := s.memory[address]?.join

/-- The server at an address is changed. -/
def store (s : ServerSlot) (address : ℕ) (f : ServerParts → ServerParts) : ServerSlot :=
  { s with memory := s.memory.modify address (Option.map f) }

/-- `free` -/
def free (s : ServerSlot) (address : ℕ) : ServerSlot :=
  { s with memory := s.memory.modify address fun _ => none }

/-- `start_server`, with `&s.server` for the parameter `server` and a configuration -/
def startServer (o : StartOutcomes) (s : ServerSlot) : ErrorCode × ServerSlot :=
  if !o.validatePassword then (.unspecific, s)
  else if !o.zmalloc then (.memoryAllocation, { s with server := none })
  else
    let address := s.memory.length
    let s : ServerSlot := ⟨s.memory ++ [some .zeroed], some address⟩
    -- neither frees the server nor resets the pointer
    if !o.mtxInit then (.unspecific, s)
    else
      let s := s.store address fun p => { p with mutex := true }
      -- nor does this; only the mutex is destroyed
      if !o.createList then (.memoryAllocation, s.store address fun p => { p with mutex := false })
      else
        let s := s.store address fun p => { p with sessions := true }
        if !o.copyString then
          let s := s.store address fun p => { p with sessions := false }
          let s := s.store address fun p => { p with mutex := false }
          (.memoryAllocation, { s.free address with server := none })
        else
          let s := s.store address fun p => { p with password := true }
          if o.createNetworkServer ≠ .none then
            let s := s.store address fun p => { p with sessions := false }
            let s := s.store address fun p => { p with mutex := false }
            let s := s.store address fun p => { p with password := false }
            (o.createNetworkServer, { s.free address with server := none })
          else (.none, s.store address fun p => { p with network := true })

/-- `stop_server`: all parts are destroyed and the server is freed.  The pointer is the caller's. -/
def stopServer (s : ServerSlot) (address : ℕ) : ServerSlot :=
  (s.store address fun _ => .zeroed).free address

end ServerSlot

/-- The initialisation of the mutex or the creation of the list fails. -/
def StartOutcomes.Abandons (o : StartOutcomes) : Prop :=
  o.validatePassword = true ∧ o.zmalloc = true ∧ (o.mtxInit = false ∨ o.createList = false)

instance (o : StartOutcomes) : Decidable o.Abandons := inferInstanceAs (Decidable (_ ∧ _ ∧ (_ ∨ _)))

/-- All steps succeed. -/
def StartOutcomes.Succeeds (o : StartOutcomes) : Prop :=
  o.validatePassword = true ∧ o.zmalloc = true ∧ o.mtxInit = true ∧ o.createList = true ∧
    o.copyString = true ∧ o.createNetworkServer = .none

instance (o : StartOutcomes) : Decidable o.Succeeds :=
  inferInstanceAs (Decidable (_ ∧ _ ∧ _ ∧ _ ∧ _ ∧ _))

/-! ### The manager with its server in memory -/

/-- `server_manager_t`, whose server may be at any stage of its start -/
structure LiveManager where
  slot : ServerSlot
  userInterventionNeeded : Bool
  changeState : Bool
  wantedStateFirst : Bool
  wantedStateNext : Bool
  shutdown : Bool
  stateListener : Bool
  deriving DecidableEq

/-- How the calls of other modules turn out during one call -/
structure LiveOutcomes extends ManagerOutcomes where
  start : StartOutcomes
  deriving DecidableEq

/-- What the manager does to the server and tells its listener.  `maintain_server` and `stop_server`
are given what the pointer leads to, if anything. -/
inductive LiveEvent where
  | maintainServer (server : Option ServerParts)
  | startServer
  | stopServer (server : Option ServerParts)
  | notify (state : ManagedServerState)
  deriving DecidableEq

/-- The functions of the manager that other modules call -/
inductive LiveCall where
  | call (call : ManagerCall)
  | registerListener
  | unregisterListener
  deriving DecidableEq

namespace LiveManager

/-- `create_server_manager` -/
def create : LiveManager := ⟨⟨[], none⟩, false, false, false, false, false, false⟩

variable (o : LiveOutcomes) (m : LiveManager)

/-- `update_wanted_state` -/
def updateWantedState (first next : Bool) : ErrorCode × LiveManager :=
  if o.lockUpdate ≠ .none then (o.lockUpdate, m)
  else
    let m := { m with userInterventionNeeded := false }
    if m.shutdown && (first || next) then (.unspecific, m)
    else (.none, { m with wantedStateFirst := first, wantedStateNext := next, changeState := true })

/-- `do_server_start` -/
def doServerStart : ErrorCode × LiveManager × List LiveEvent :=
  if !o.allLicensesAccepted then (.unspecific, m, [])
  else if o.updateServerConfig ≠ .none then
    (o.updateServerConfig, { m with userInterventionNeeded := true }, [])
  else
    let (err, slot) := m.slot.startServer o.start
    (err, { m with slot := slot }, if err = .none then [.startServer] else [])

/-- `do_server_stop` -/
def doServerStop : ErrorCode × LiveManager × List LiveEvent :=
  match m.slot.server with
  | none => (.none, m, [])
  | some address =>
    (.none, { m with slot := { m.slot.stopServer address with server := none } },
      [.stopServer (m.slot.load address)])

/-- `get_managed_server_state_locked` -/
def stateLocked : ManagedServerState :=
  if m.shutdown then .shutdown
  else if m.slot.server.isSome then .started
  else if m.changeState && (m.wantedStateFirst || m.wantedStateNext) then .restarting
  else .stopped

/-- The first wanted state is passed over once it is reached. -/
def forward : LiveManager :=
  { m with wantedStateFirst :=
      if m.slot.server.isSome = m.wantedStateFirst then m.wantedStateNext else m.wantedStateFirst }

/-- The start or stop that the first wanted state asks for. -/
def doTransition : ErrorCode × LiveManager × List LiveEvent :=
  if m.wantedStateFirst then m.doServerStart o else m.doServerStop

/-- The handling of state changes in `maintain_server_manager`, after the maintenance of the server
itself has ended with `err`. -/
def updateState (err : ErrorCode) : ErrorCode × LiveManager × List LiveEvent :=
  if !m.changeState then (err, m, [])
  else
    let m := m.forward
    let wantedStateToggles := m.wantedStateFirst != m.wantedStateNext
    if !wantedStateToggles && m.slot.server.isSome == m.wantedStateFirst then
      (err, { m with changeState := false }, [])
    else
      let (err, m, events) := m.doTransition o
      if err ≠ .none then
        (err, if m.userInterventionNeeded then { m with changeState := false } else m, events)
      else (.none, if wantedStateToggles then m else { m with changeState := false }, events)

/-- `maintain_server_manager` -/
def maintain : ErrorCode × LiveManager × List LiveEvent :=
  if o.lockMaintain ≠ .none then (o.lockMaintain, m, [])
  else
    let entryState := m.stateLocked
    let (err, maintenance) := match m.slot.server with
      | none => (ErrorCode.none, [])
      | some address => (o.maintainServer, [LiveEvent.maintainServer (m.slot.load address)])
    let (err, m, events) := m.updateState o err
    let exitState := m.stateLocked
    let notification := if entryState ≠ exitState ∧ m.stateListener then [.notify exitState] else []
    (err, m, maintenance ++ events ++ notification)

/-- `start_managed_server`, `stop_managed_server`, `restart_managed_server` and
`shutdown_managed_server` -/
def request (r : ManagerRequest) : ErrorCode × LiveManager × List LiveEvent :=
  let m := if r = .shutdown then { m with shutdown := true } else m
  let (err, m) := m.updateWantedState o r.wanted.1 r.wanted.2
  if err ≠ .none then (err, m, []) else m.maintain o

/-- `register_server_state_listener`; the lock is the one of `lockUpdate`. -/
def registerListener : ErrorCode × LiveManager × List LiveEvent :=
  if o.lockUpdate ≠ .none then (.mutexFailed, m, [])
  else if m.stateListener then (.unspecific, m, [])
  else (.none, { m with stateListener := true }, [])

/-- `unregister_server_state_listener` for the listener that is registered -/
def unregisterListener : ErrorCode × LiveManager × List LiveEvent :=
  if o.lockUpdate ≠ .none then (.mutexFailed, m, [])
  else (.none, { m with stateListener := false }, [])

/-- A call and how it turns out -/
def perform (c : LiveCall × LiveOutcomes) (m : LiveManager) :
    ErrorCode × LiveManager × List LiveEvent :=
  match c.1 with
  | .call (.request r) => m.request c.2 r
  | .call .maintain => m.maintain c.2
  | .registerListener => m.registerListener c.2
  | .unregisterListener => m.unregisterListener c.2

/-- All runs of a server manager -/
def system : System LiveManager (LiveCall × LiveOutcomes) where
  init m := m = create
  next m c m' := m' = (m.perform c).2.1

/-- No start is left half-way. -/
def NotAbandoned (_ : LiveManager) (c : LiveCall × LiveOutcomes) : Prop := ¬ c.2.start.Abandons

end LiveManager

/-- What is maintained or stopped is a complete server. -/
def LiveEvent.OnComplete : LiveEvent → Prop
  | .maintainServer server | .stopServer server => server = some .complete
  | .startServer | .notify _ => True

/-! ### One start -/

namespace ServerSlot

variable {o : StartOutcomes} {s : ServerSlot}

theorem modify_last {α : Type*} (memory : List α) (cell : α) (f : α → α) :
    (memory ++ [cell]).modify memory.length f = memory ++ [f cell] := by
  induction memory with
  | nil => rfl
  | cons first memory ih => simp [ih]

@[simp] theorem store_append (memory : List (Option ServerParts)) (parts : ServerParts)
    (server : Option ℕ) (f : ServerParts → ServerParts) :
    (ServerSlot.mk (memory ++ [some parts]) server).store memory.length f =
      ⟨memory ++ [some (f parts)], server⟩ := by
  simp [store, modify_last]

@[simp] theorem free_append (memory : List (Option ServerParts)) (cell : Option ServerParts)
    (server : Option ℕ) :
    (ServerSlot.mk (memory ++ [cell]) server).free memory.length = ⟨memory ++ [none], server⟩ := by
  simp [free, modify_last]

/-- A start is left half-way, taken back, or complete. -/
theorem startServer_cases (o : StartOutcomes) (hserver : s.server = none) :
    (o.Abandons ∧ (s.startServer o).1 ≠ .none ∧ ∃ parts ≠ ServerParts.complete,
      (s.startServer o).2 = ⟨s.memory ++ [some parts], some s.memory.length⟩) ∨
    (¬ o.Abandons ∧ (s.startServer o).1 ≠ .none ∧ ∃ freed, (∀ cell ∈ freed, cell = none) ∧
      (s.startServer o).2 = ⟨s.memory ++ freed, none⟩) ∨
    (o.Succeeds ∧ s.startServer o =
      (.none, ⟨s.memory ++ [some .complete], some s.memory.length⟩)) := by
  obtain ⟨memory, server⟩ := s
  obtain rfl : server = none := hserver
  unfold startServer StartOutcomes.Abandons StartOutcomes.Succeeds
  cases hpassword : o.validatePassword with
  | false => exact .inr (.inl ⟨by simp, by simp, [], by simp, by simp⟩)
  | true =>
  cases hzmalloc : o.zmalloc with
  | false => exact .inr (.inl ⟨by simp, by simp, [], by simp, by simp⟩)
  | true =>
  cases hmutex : o.mtxInit with
  | false => exact .inl ⟨by simp, by simp, .zeroed, by decide, by simp⟩
  | true =>
  cases hlist : o.createList with
  | false => exact .inl ⟨by simp, by simp, .zeroed, by decide, by simp [ServerParts.zeroed]⟩
  | true =>
  -- from here on a failure frees the server
  cases hcopy : o.copyString with
  | false => exact .inr (.inl ⟨by simp, by simp, [none], by simp, by simp⟩)
  | true =>
  by_cases hnetwork : o.createNetworkServer = .none
  · exact .inr
      (.inr ⟨by simp [hnetwork], by simp [hnetwork, ServerParts.zeroed, ServerParts.complete]⟩)
  · exact .inr (.inl ⟨by simp, by simp [hnetwork], [none], by simp, by simp [hnetwork]⟩)

/-- **A failing start resets the pointer**, unless it is left half-way. -/
theorem startServer_resets_iff (o : StartOutcomes) (hserver : s.server = none)
    (hfails : (s.startServer o).1 ≠ .none) :
    (s.startServer o).2.server = none ↔ ¬ o.Abandons := by
  obtain ⟨habandons, -, parts, -, h⟩ | ⟨habandons, -, freed, -, h⟩ | ⟨-, h⟩ :=
    startServer_cases o hserver
  · simp [h, habandons]
  · simp [h, habandons]
  · exact absurd (by rw [h]) hfails

/-- The pointer leads to a complete server, and no other server exists. -/
def Whole (s : ServerSlot) : Prop :=
  ∀ address parts, s.load address = some parts ↔ s.server = some address ∧ parts = .complete

theorem load_append (memory appended : List (Option ServerParts)) (server : Option ℕ)
    (address : ℕ) : (ServerSlot.mk (memory ++ appended) server).load address =
      if address < memory.length then memory[address]?.join
      else appended[address - memory.length]?.join := by
  rw [load, List.getElem?_append]
  split_ifs <;> rfl

/-- Nothing is allocated while there is no server. -/
theorem Whole.load_eq_none (h : s.Whole) (hserver : s.server = none) (address : ℕ) :
    s.load address = none := by
  refine Option.eq_none_iff_forall_ne_some.2 fun parts hload => ?_
  have hpointer := ((h address parts).1 hload).1
  rw [hserver] at hpointer
  cases hpointer

/-- What is allocated by a start that takes everything back is free again. -/
theorem join_getElem?_of_freed {freed : List (Option ServerParts)}
    (hfreed : ∀ cell ∈ freed, cell = none) (i : ℕ) : freed[i]?.join = none := by
  cases hcell : freed[i]? with
  | none => rfl
  | some cell => exact hfreed cell (List.mem_of_getElem? hcell)

theorem Whole.startServer (h : s.Whole) (hserver : s.server = none) (habandons : ¬ o.Abandons) :
    (s.startServer o).2.Whole := by
  have hload : ∀ address, s.memory[address]?.join = none := h.load_eq_none hserver
  obtain ⟨hnot, -⟩ | ⟨-, -, freed, hfreed, hslot⟩ | ⟨-, hslot⟩ := startServer_cases o hserver
  · exact absurd hnot habandons
  · rw [hslot]
    intro address parts
    rw [load_append, hload, join_getElem?_of_freed hfreed, ite_self]
    simp
  · rw [hslot]
    intro address parts
    rw [load_append, hload]
    dsimp only
    split_ifs with haddress
    · simp [Nat.ne_of_gt haddress]
    · obtain ⟨i, rfl⟩ := Nat.exists_eq_add_of_le (not_lt.1 haddress)
      cases i with
      | zero => simp [eq_comm]
      | succ i => simp

theorem Whole.stopServer {address : ℕ} (h : s.Whole) (hserver : s.server = some address) :
    { s.stopServer address with server := none }.Whole := by
  intro other parts
  have hother := h other parts
  rw [hserver, load] at hother
  simp only [load, ServerSlot.stopServer, free, store, List.getElem?_modify,
    reduceCtorEq, false_and, iff_false]
  intro hparts
  by_cases hsame : address = other
  · subst hsame
    revert hparts
    cases s.memory[address]? <;> simp
  · simp only [hsame, if_false, Option.map_eq_map, Option.map_id'] at hparts
    exact hsame (Option.some.inj (hother.1 (by simpa using hparts)).1)

end ServerSlot

/-! ### What one call does -/

/-- What becomes of the server while state changes are handled, with what is done to it. -/
inductive SlotChange (start : StartOutcomes) : ServerSlot → ServerSlot → List LiveEvent → Prop
  | stays (slot : ServerSlot) : SlotChange start slot slot []
  | starts {slot : ServerSlot} (events : List LiveEvent) : slot.server = none →
      (∀ event ∈ events, event = .startServer) →
      SlotChange start slot (slot.startServer start).2 events
  | stops {slot : ServerSlot} {address : ℕ} : slot.server = some address →
      SlotChange start slot { slot.stopServer address with server := none }
        [.stopServer (slot.load address)]

theorem SlotChange.whole {start : StartOutcomes} {slot slot' : ServerSlot} {events : List LiveEvent}
    (h : SlotChange start slot slot' events) (hwhole : slot.Whole) (habandons : ¬ start.Abandons) :
    slot'.Whole := by
  cases h with
  | stays => exact hwhole
  | starts _ hserver => exact hwhole.startServer hserver habandons
  | stops hserver => exact hwhole.stopServer hserver

theorem SlotChange.onComplete {start : StartOutcomes} {slot slot' : ServerSlot}
    {events : List LiveEvent} (h : SlotChange start slot slot' events) (hwhole : slot.Whole) :
    ∀ event ∈ events, event.OnComplete ∧ ∀ state, event ≠ .notify state := by
  intro event hevent
  cases h with
  | stays => cases hevent
  | starts _ _ hevents =>
    obtain rfl := hevents event hevent
    exact ⟨trivial, fun _ => by simp⟩
  | @stops address hserver =>
    obtain rfl := List.mem_singleton.1 hevent
    exact ⟨(hwhole address .complete).2 ⟨hserver, rfl⟩, fun _ => by simp⟩

namespace LiveManager

variable {o : LiveOutcomes} {m : LiveManager}

/-- The manager as `server_manager.c` sees it: there is a server, or there is none. -/
def toManager (m : LiveManager) : ServerManager where
  server := m.slot.server.isSome
  userInterventionNeeded := m.userInterventionNeeded
  changeState := m.changeState
  wantedStateFirst := m.wantedStateFirst
  wantedStateNext := m.wantedStateNext
  shutdown := m.shutdown
  stateListener := m.stateListener

theorem stateLocked_toManager (m : LiveManager) : m.toManager.stateLocked = m.stateLocked := rfl

theorem forward_toManager (m : LiveManager) : m.toManager.forward = m.forward.toManager := rfl

/-- A start is tried only where there is no server. -/
theorem doTransition_change (h : m.wantedStateFirst = !m.slot.server.isSome) :
    SlotChange o.start m.slot (m.doTransition o).2.1.slot (m.doTransition o).2.2 := by
  unfold doTransition doServerStart doServerStop
  cases hserver : m.slot.server with
  | none =>
    rw [if_pos (by simp [h, hserver])]
    split_ifs with haccepted hconfig
    · exact .stays m.slot
    · exact .stays m.slot
    · refine .starts _ hserver fun event hevent => ?_
      replace hevent : event ∈ if (m.slot.startServer o.start).1 = .none then
        [.startServer] else [] :=
        hevent
      split_ifs at hevent
      · exact List.mem_singleton.1 hevent
      · cases hevent
  | some address =>
    rw [if_neg (by simp [h, hserver])]
    exact .stops hserver

theorem updateState_change (o : LiveOutcomes) (m : LiveManager) (err : ErrorCode) :
    SlotChange o.start m.slot (m.updateState o err).2.1.slot (m.updateState o err).2.2 := by
  unfold updateState
  by_cases hchange : m.changeState = true
  · rw [if_neg (by simp [hchange])]
    dsimp only
    by_cases hstable : m.forward.wantedStateFirst = m.wantedStateNext ∧
        m.slot.server.isSome = m.forward.wantedStateFirst
    · rw [if_pos (by simpa [forward] using hstable)]
      exact .stays m.slot
    · rw [if_neg (by simpa [forward] using hstable)]
      have hfirst : m.forward.wantedStateFirst = !m.slot.server.isSome :=
        ServerManager.forward_wantedStateFirst_ne (m := m.toManager) hstable
      have htransition := doTransition_change (o := o) (m := m.forward) hfirst
      split_ifs <;> exact htransition
  · rw [if_pos (by simp [hchange])]
    exact .stays m.slot

/-- Nothing happens without the lock; otherwise the server is maintained, state changes are handled,
and the listener is told the state in the end. -/
theorem maintain_cases (o : LiveOutcomes) (m : LiveManager) :
    (m.maintain o = (o.lockMaintain, m, [])) ∨
    ∃ events notification, SlotChange o.start m.slot (m.maintain o).2.1.slot events ∧
      (m.maintain o).2.2 =
        (m.slot.server.map fun address => LiveEvent.maintainServer (m.slot.load address)).toList ++
          events ++ notification ∧
      (∀ event ∈ notification, event = .notify (m.maintain o).2.1.stateLocked) := by
  unfold maintain
  split_ifs with hlock
  · exact .inl rfl
  · cases hserver : m.slot.server with
    | none =>
      refine .inr ⟨_, _, updateState_change o m .none, rfl, fun event hevent => ?_⟩
      split_ifs at hevent
      · exact List.mem_singleton.1 hevent
      · cases hevent
    | some address =>
      refine .inr ⟨_, _, updateState_change o m o.maintainServer, rfl, fun event hevent => ?_⟩
      split_ifs at hevent
      · exact List.mem_singleton.1 hevent
      · cases hevent

theorem updateWantedState_slot (o : LiveOutcomes) (m : LiveManager) (first next : Bool) :
    (m.updateWantedState o first next).2.slot = m.slot := by
  unfold updateWantedState
  dsimp only
  split_ifs <;> rfl

/-- What a call tells the listener and does to the server. -/
structure Proper (m m' : LiveManager) (events : List LiveEvent) : Prop where
  whole : m'.slot.Whole
  onComplete : ∀ event ∈ events, event.OnComplete
  notified : ∀ state, .notify state ∈ events → state = m'.stateLocked

theorem Proper.silent {m m' : LiveManager} (h : m.slot.Whole) (hslot : m'.slot = m.slot) :
    Proper m m' [] :=
  ⟨hslot ▸ h, fun _ hevent => absurd hevent List.not_mem_nil,
    fun _ hevent => absurd hevent List.not_mem_nil⟩

theorem maintain_proper (h : m.slot.Whole) (habandons : ¬ o.start.Abandons) :
    Proper m (m.maintain o).2.1 (m.maintain o).2.2 := by
  obtain hlock | ⟨events, notification, hchange, hevents, hnotification⟩ := maintain_cases o m
  · rw [hlock]
    exact .silent h rfl
  refine ⟨hchange.whole h habandons, fun event hevent => ?_, fun state hstate => ?_⟩
  · rw [hevents] at hevent
    rcases List.mem_append.1 hevent with hevent | hevent
    · rcases List.mem_append.1 hevent with hevent | hevent
      · obtain ⟨address, hserver, rfl⟩ := Option.map_eq_some_iff.1 (Option.mem_toList.1 hevent)
        exact (h address .complete).2 ⟨hserver, rfl⟩
      · exact (hchange.onComplete h event hevent).1
    · obtain rfl := hnotification event hevent
      trivial
  · rw [hevents] at hstate
    rcases List.mem_append.1 hstate with hstate | hstate
    · rcases List.mem_append.1 hstate with hstate | hstate
      · obtain ⟨address, -, heq⟩ := Option.map_eq_some_iff.1 (Option.mem_toList.1 hstate)
        cases heq
      · exact absurd rfl ((hchange.onComplete h _ hstate).2 state)
    · exact LiveEvent.notify.inj (hnotification _ hstate)

theorem perform_proper {c : LiveCall × LiveOutcomes} (h : m.slot.Whole)
    (habandons : ¬ c.2.start.Abandons) : Proper m (m.perform c).2.1 (m.perform c).2.2 := by
  obtain ⟨call, o⟩ := c
  cases call with
  | registerListener =>
    show Proper m (m.registerListener o).2.1 (m.registerListener o).2.2
    unfold registerListener
    split_ifs <;> exact .silent h rfl
  | unregisterListener =>
    show Proper m (m.unregisterListener o).2.1 (m.unregisterListener o).2.2
    unfold unregisterListener
    split_ifs <;> exact .silent h rfl
  | call call =>
    cases call with
    | maintain => exact maintain_proper h habandons
    | request r =>
      show Proper m (m.request o r).2.1 (m.request o r).2.2
      unfold request
      -- a request changes the server only through the maintenance it ends with
      set recorded := (if r = .shutdown then { m with shutdown := true } else m) with hrecorded
      have hslot : (recorded.updateWantedState o r.wanted.1 r.wanted.2).2.slot = m.slot := by
        rw [updateWantedState_slot, hrecorded]
        split_ifs <;> rfl
      dsimp only
      split_ifs
      · exact .silent h hslot
      · exact ⟨(maintain_proper (hslot ▸ h) habandons).whole,
          (maintain_proper (hslot ▸ h) habandons).onComplete,
          (maintain_proper (hslot ▸ h) habandons).notified⟩

theorem whole_of_reachable (h : (system.restrict NotAbandoned).Reachable m) : m.slot.Whole := by
  refine h.invariant (I := fun m => m.slot.Whole) ?_ fun m c m' _ hm hn => ?_
  · rintro m rfl
    intro address parts
    simp [create, ServerSlot.load]
  · obtain ⟨habandons, rfl⟩ := hn
    exact (perform_proper hm habandons).whole

end LiveManager

open LiveManager in
/-- **The pointer tells whether there is a server.**  A start that fails where there is no server
leaves the pointer `NULL` unless it is left half-way.  In every state of a run in which no start is
left half-way, there is a server exactly if a completely started one exists, to which the pointer
leads, and no other server is left in memory; if the manager says that the server is started, it is
complete.  Whatever a call maintains or stops then is complete, and the listener is told that the
server is started only where it is. -/
theorem managesCompleteServers {s : ServerSlot} {m : LiveManager} (hserver : s.server = none)
    (hm : (system.restrict NotAbandoned).Reachable m) :
    (∀ o : StartOutcomes, (s.startServer o).1 ≠ .none →
      ((s.startServer o).2.server = none ↔ ¬ o.Abandons)) ∧
      (m.slot.server ≠ none ↔ ∃ address, m.slot.load address = some .complete) ∧
      m.slot.Whole ∧
      (m.stateLocked = .started → ∃ address, m.slot.server = some address ∧
        m.slot.load address = some .complete) ∧
      ∀ c, NotAbandoned m c → (∀ event ∈ (m.perform c).2.2, event.OnComplete) ∧
        (.notify .started ∈ (m.perform c).2.2 → ∃ address,
          (m.perform c).2.1.slot.server = some address ∧
          (m.perform c).2.1.slot.load address = some .complete) := by
  have hstarted : ∀ m : LiveManager, m.slot.Whole → m.stateLocked = .started →
      ∃ address, m.slot.server = some address ∧ m.slot.load address = some .complete := by
    intro m hwhole hstate
    cases hserver : m.slot.server with
    | none =>
      unfold stateLocked at hstate
      simp only [hserver, Option.isSome_none, Bool.false_eq_true, if_false] at hstate
      split_ifs at hstate
    | some address => exact ⟨address, rfl, (hwhole address .complete).2 ⟨hserver, rfl⟩⟩
  have hwhole := whole_of_reachable hm
  refine ⟨fun o => ServerSlot.startServer_resets_iff o hserver,
    ⟨fun hserver => ?_, fun ⟨address, hload⟩ => ?_⟩, hwhole, hstarted m hwhole,
    fun c habandons => ?_⟩
  · obtain ⟨address, haddress⟩ := Option.ne_none_iff_exists'.1 hserver
    exact ⟨address, (hwhole address .complete).2 ⟨haddress, rfl⟩⟩
  · rw [((hwhole address .complete).1 hload).1]
    exact Option.some_ne_none address
  · have hproper := perform_proper hwhole habandons
    exact ⟨hproper.onComplete, fun hnotify =>
      hstarted _ hproper.whole (hproper.notified _ hnotify).symm⟩

/-- After a start that succeeds the pointer leads to a complete server. -/
theorem managesCompleteServers_started : ∃ address, ((LiveManager.create.perform
    (.call (.request .start), ⟨.success, ⟨true, true, true, true, true, .none⟩⟩)).2.1.slot.load
      address =
      some .complete) :=
  (@managesCompleteServers ⟨[], none⟩ _ rfl (.step
    (.call (.request .start), ⟨.success, ⟨true, true, true, true, true, .none⟩⟩) (.start rfl)
    ⟨show ¬ StartOutcomes.Abandons ⟨true, true, true, true, true, .none⟩ by decide, rfl⟩)).2.1.1
      (by decide)

/-- Everything succeeds but the initialisation of the mutex. -/
def mutexFailure : LiveOutcomes :=
  ⟨⟨.none, .none, true, .none, .none⟩, ⟨true, true, false, true, true, .none⟩⟩

/-- The mutex cannot be initialised while the server starts: the request fails, the manager says
that there is a server, and maintains what has been built of it in the next round. -/
theorem not_managesCompleteServers :
    ∃ m m', LiveManager.system.Reachable m ∧ LiveManager.system.Reachable m' ∧
      m' = (m.perform (.call (.request .start), mutexFailure)).2.1 ∧
      (m.perform (.call (.request .start), mutexFailure)).1 = .unspecific ∧
      m.slot.server = none ∧ m'.slot.server = some 0 ∧ m'.slot.memory = [some .zeroed] ∧
      m'.stateLocked = .started ∧
      (m'.perform (.call .maintain, mutexFailure)).2.2 = [.maintainServer (some .zeroed)] :=
  ⟨.create, _, .start rfl, .step (.call (.request .start), mutexFailure) (.start rfl) rfl, rfl,
    by decide, by decide, by decide, by decide, by decide, by decide⟩

/-! ### The manager whose starts succeed -/

/-- A call in which the server cannot be started is one in which the licenses forbid it, provided
there is a configuration to start it with. -/
def LiveOutcomes.asManager (o : LiveOutcomes) : ManagerOutcomes :=
  { o.toManagerOutcomes with
    allLicensesAccepted := o.allLicensesAccepted &&
      (decide (o.updateServerConfig ≠ .none) || decide o.start.Succeeds) }

/-- The event without the server it is about -/
def LiveEvent.asManager : LiveEvent → ManagerEvent
  | .maintainServer _ => .maintainServer
  | .startServer => .startServer
  | .stopServer _ => .stopServer
  | .notify state => .notify state

/-- Both calls succeed or both fail, and they leave the same and do the same. -/
def Simulates (result : ErrorCode × LiveManager × List LiveEvent)
    (result' : ErrorCode × ServerManager × List ManagerEvent) : Prop :=
  (result.1 = .none ↔ result'.1 = .none) ∧ result.2.1.toManager = result'.2.1 ∧
    result.2.2.map LiveEvent.asManager = result'.2.2

theorem not_succeeds_of_fails {o : StartOutcomes} {s : ServerSlot}
    (hfails : (s.startServer o).1 ≠ .none) : ¬ o.Succeeds := by
  rintro ⟨hpassword, hzmalloc, hmutex, hlist, hcopy, hnetwork⟩
  refine hfails ?_
  simp [ServerSlot.startServer, hpassword, hzmalloc, hmutex, hlist, hcopy, hnetwork]

namespace LiveManager

variable {o : LiveOutcomes} {m : LiveManager}

theorem doServerStart_simulates (hserver : m.slot.server = none) (habandons : ¬ o.start.Abandons) :
    Simulates (m.doServerStart o) (m.toManager.doServerStart o.asManager) := by
  unfold doServerStart ServerManager.doServerStart
  cases haccepted : o.allLicensesAccepted with
  | false => simp [Simulates, LiveOutcomes.asManager, haccepted]
  | true =>
    by_cases hconfig : o.updateServerConfig = .none
    · obtain ⟨hnot, -⟩ | ⟨-, hfails, freed, -, hslot⟩ | ⟨hsucceeds, hslot⟩ :=
        ServerSlot.startServer_cases o.start hserver
      · exact absurd hnot habandons
      · -- the start fails, and the licenses would forbid it
        have hnot := not_succeeds_of_fails hfails
        simp [Simulates, LiveOutcomes.asManager, hconfig, hnot, hfails, hslot, toManager, hserver]
      · simp [Simulates, LiveOutcomes.asManager, haccepted, hconfig, hsucceeds, hslot, toManager,
          LiveEvent.asManager]
    · simp [Simulates, LiveOutcomes.asManager, haccepted, hconfig, toManager]

theorem doServerStop_simulates : Simulates m.doServerStop m.toManager.doServerStop := by
  unfold doServerStop ServerManager.doServerStop
  cases hserver : m.slot.server with
  | none => simp [Simulates, toManager, hserver]
  | some address => simp [Simulates, toManager, hserver, LiveEvent.asManager]

theorem doTransition_simulates (h : m.wantedStateFirst = !m.slot.server.isSome)
    (habandons : ¬ o.start.Abandons) :
    Simulates (m.doTransition o) (m.toManager.doTransition o.asManager) := by
  unfold doTransition ServerManager.doTransition
  rw [show m.toManager.wantedStateFirst = m.wantedStateFirst from rfl]
  split_ifs with hstart
  · have hserver : m.slot.server = none := by simpa [hstart] using h
    exact doServerStart_simulates hserver habandons
  · exact doServerStop_simulates

theorem updateState_simulates {err err' : ErrorCode} (herr : err = .none ↔ err' = .none)
    (habandons : ¬ o.start.Abandons) :
    Simulates (m.updateState o err) (m.toManager.updateState o.asManager err') := by
  unfold updateState ServerManager.updateState
  by_cases hchange : (!m.changeState) = true
  · rw [if_pos hchange, if_pos (show (!m.toManager.changeState) = true from hchange)]
    exact ⟨herr, rfl, rfl⟩
  rw [if_neg hchange, if_neg (show ¬ (!m.toManager.changeState) = true from hchange),
    forward_toManager]
  dsimp only
  by_cases hstable : (!(m.forward.wantedStateFirst != m.forward.wantedStateNext) &&
      m.forward.slot.server.isSome == m.forward.wantedStateFirst) = true
  · rw [if_pos hstable, if_pos (show (!(m.forward.toManager.wantedStateFirst !=
      m.forward.toManager.wantedStateNext) &&
      m.forward.toManager.server == m.forward.toManager.wantedStateFirst) = true from hstable)]
    exact ⟨herr, rfl, rfl⟩
  have hfirst : m.forward.wantedStateFirst = !m.slot.server.isSome :=
    ServerManager.forward_wantedStateFirst_ne (m := m.toManager) fun h => hstable (by
      have h : m.forward.wantedStateFirst = m.forward.wantedStateNext ∧
        m.forward.slot.server.isSome = m.forward.wantedStateFirst := h
      simp [h.1, h.2])
  obtain ⟨hresult, hstate, hevents⟩ :=
    doTransition_simulates (o := o) (m := m.forward) hfirst habandons
  rw [if_neg hstable, if_neg (show ¬ (!(m.forward.toManager.wantedStateFirst !=
    m.forward.toManager.wantedStateNext) &&
    m.forward.toManager.server == m.forward.toManager.wantedStateFirst) = true from hstable)]
  -- both transitions end alike, and so does what is done about their result
  rw [← hstate, ← hevents]
  by_cases hok : (m.forward.doTransition o).1 = .none
  · rw [if_neg (not_not.2 hok), if_neg (not_not.2 (hresult.1 hok))]
    refine ⟨Iff.rfl, ?_, rfl⟩
    show toManager (if (m.forward.wantedStateFirst != m.forward.wantedStateNext) = true then
        _ else _) =
      if (m.forward.wantedStateFirst != m.forward.wantedStateNext) = true then _ else _
    split_ifs <;> rfl
  · rw [if_pos hok, if_pos fun h => hok (hresult.2 h)]
    refine ⟨hresult, ?_, rfl⟩
    show toManager (if (m.forward.doTransition o).2.1.userInterventionNeeded = true then _ else _) =
      if (m.forward.doTransition o).2.1.userInterventionNeeded = true then _ else _
    split_ifs <;> rfl

/-- **Maintenance of a server in memory is maintenance of a server**, as long as no start is left
half-way. -/
theorem maintain_simulates (habandons : ¬ o.start.Abandons) :
    Simulates (m.maintain o) (m.toManager.maintain o.asManager) := by
  unfold maintain ServerManager.maintain
  by_cases hlock : o.lockMaintain ≠ .none
  · rw [if_pos hlock, if_pos (show o.asManager.lockMaintain ≠ .none from hlock)]
    exact ⟨Iff.rfl, rfl, rfl⟩
  rw [if_neg hlock, if_neg (show ¬ o.asManager.lockMaintain ≠ .none from hlock)]
  -- the listener is told the same
  have hnotification : ∀ m' : LiveManager,
      (if m.stateLocked ≠ m'.stateLocked ∧ m'.stateListener = true then
        [LiveEvent.notify m'.stateLocked] else []).map LiveEvent.asManager =
      if m.toManager.stateLocked ≠ m'.toManager.stateLocked ∧ m'.toManager.stateListener = true then
        [ManagerEvent.notify m'.toManager.stateLocked] else [] := by
    intro m'
    rw [stateLocked_toManager, stateLocked_toManager,
      show m'.toManager.stateListener = m'.stateListener from rfl]
    split_ifs <;> rfl
  cases hserver : m.slot.server with
  | none =>
    have hnone : m.toManager.server = false := by simp [toManager, hserver]
    obtain ⟨hresult, hstate, hevents⟩ :=
      updateState_simulates (o := o) (m := m) (Iff.refl (ErrorCode.none = .none)) habandons
    simp only [hnone, Bool.false_eq_true, if_false]
    refine ⟨hresult, hstate, ?_⟩
    rw [List.map_append, List.map_append, hnotification, hevents, hstate]
    rfl
  | some address =>
    have hsome : m.toManager.server = true := by simp [toManager, hserver]
    obtain ⟨hresult, hstate, hevents⟩ :=
      updateState_simulates (o := o) (m := m) (Iff.refl (o.maintainServer = .none)) habandons
    simp only [hsome, if_true]
    refine ⟨hresult, hstate, ?_⟩
    rw [List.map_append, List.map_append, hnotification, hevents, hstate]
    rfl

theorem updateWantedState_toManager (o : LiveOutcomes) (m : LiveManager) (first next : Bool) :
    m.toManager.updateWantedState o.asManager first next =
      ((m.updateWantedState o first next).1, (m.updateWantedState o first next).2.toManager) := by
  unfold updateWantedState ServerManager.updateWantedState
  rw [show o.asManager.lockUpdate = o.lockUpdate from rfl]
  dsimp only
  rw [show m.toManager.shutdown = m.shutdown from rfl]
  split_ifs <;> rfl

theorem request_simulates (r : ManagerRequest) (habandons : ¬ o.start.Abandons) :
    Simulates (m.request o r) (m.toManager.request r o.asManager) := by
  unfold request ServerManager.request
  have hshutdown : (if r = .shutdown then { m.toManager with shutdown := true } else m.toManager) =
      (if r = .shutdown then { m with shutdown := true } else m).toManager := by
    split_ifs <;> rfl
  dsimp only
  rw [hshutdown, updateWantedState_toManager]
  by_cases hrecorded :
    ((if r = .shutdown then { m with shutdown := true } else m).updateWantedState o
      r.wanted.1 r.wanted.2).1 = .none
  · rw [if_neg (not_not.2 hrecorded), if_neg (not_not.2 hrecorded)]
    exact maintain_simulates habandons
  · rw [if_pos hrecorded, if_pos hrecorded]
    exact ⟨Iff.rfl, rfl, rfl⟩

theorem perform_simulates {c : ManagerCall × LiveOutcomes} (habandons : ¬ c.2.start.Abandons) :
    Simulates (m.perform (.call c.1, c.2)) (m.toManager.perform (c.1, c.2.asManager)) := by
  obtain ⟨call, o⟩ := c
  cases call with
  | request r => exact request_simulates r habandons
  | maintain => exact maintain_simulates habandons

/-- Calls one after the other -/
def run : List (ManagerCall × LiveOutcomes) → LiveManager → LiveManager
  | [], m => m
  | c :: calls, m => run calls (m.perform (.call c.1, c.2)).2.1

/-- What happens during them -/
def events : List (ManagerCall × LiveOutcomes) → LiveManager → List LiveEvent
  | [], _ => []
  | c :: calls, m =>
    (m.perform (.call c.1, c.2)).2.2 ++ events calls (m.perform (.call c.1, c.2)).2.1

theorem run_toManager {calls : List (ManagerCall × LiveOutcomes)}
    (hcalls : ∀ c ∈ calls, ¬ c.2.start.Abandons) (m : LiveManager) :
    (run calls m).toManager =
        ServerManager.run (calls.map fun c => (c.1, c.2.asManager)) m.toManager ∧
      (events calls m).map LiveEvent.asManager =
        ServerManager.events (calls.map fun c => (c.1, c.2.asManager)) m.toManager := by
  induction calls generalizing m with
  | nil => exact ⟨rfl, rfl⟩
  | cons c calls ih =>
    obtain ⟨-, hstate, hevents⟩ := perform_simulates (m := m) (hcalls c (by simp))
    obtain ⟨hrun, hrest⟩ := ih (fun d hd => hcalls d (by simp [hd]))
      (m.perform (.call c.1, c.2)).2.1
    rw [hstate] at hrun hrest
    refine ⟨hrun, ?_⟩
    rw [events, List.map_append, hevents, hrest]
    rfl

/-! ### A start is tried again -/

/-- Maintenance gets the lock and may start the server with the configuration it has. -/
structure Willing (o : LiveOutcomes) : Prop where
  lockMaintain : o.lockMaintain = .none
  accepted : o.allLicensesAccepted = true
  configured : o.updateServerConfig = .none
  notAbandoned : ¬ o.start.Abandons

/-- There is no server, but one is wanted, now and in the end. -/
structure Starting (m : LiveManager) : Prop where
  server : m.slot.server = none
  changeState : m.changeState = true
  first : m.wantedStateFirst = true
  next : m.wantedStateNext = true
  intervention : m.userInterventionNeeded = false

/-- There is a server, and nothing is left to do. -/
structure Running (m : LiveManager) : Prop where
  server : m.slot.server ≠ none
  changeState : m.changeState = false

theorem maintain_snd_fst (hlock : o.lockMaintain = .none) :
    ∃ err, (m.maintain o).2.1 = (m.updateState o err).2.1 := by
  unfold maintain
  rw [if_neg (not_not.2 hlock)]
  cases m.slot.server <;> exact ⟨_, rfl⟩

theorem Running.maintain (h : Running m) (hlock : o.lockMaintain = .none) :
    Running (m.maintain o).2.1 := by
  obtain ⟨err, hstate⟩ := maintain_snd_fst (m := m) hlock
  have hstays : m.updateState o err = (err, m, []) := by simp [updateState, h.changeState]
  rw [hstate, hstays]
  exact h

/-- A round of maintenance starts the server, or leaves everything as it is for the next round. -/
theorem Starting.maintain (h : Starting m) (ho : Willing o) :
    (o.start.Succeeds ∧ Running (m.maintain o).2.1) ∨
      (¬ o.start.Succeeds ∧ Starting (m.maintain o).2.1) := by
  obtain ⟨err, hstate⟩ := maintain_snd_fst (m := m) ho.lockMaintain
  rw [hstate]
  obtain ⟨slot, intervention, change, first, next, shutdown, listener⟩ := m
  obtain ⟨hserver, rfl, rfl, rfl, rfl⟩ := h
  dsimp only at hserver
  have htry : (updateState o ⟨slot, false, true, true, true, shutdown, listener⟩ err).2.1 =
      ⟨(slot.startServer o.start).2, false, decide ((slot.startServer o.start).1 ≠ .none),
        true, true, shutdown, listener⟩ := by
    by_cases hok : (slot.startServer o.start).1 = .none
    all_goals simp [updateState, forward, doTransition, doServerStart, hserver, ho.accepted,
      ho.configured, hok]
  rw [htry]
  obtain ⟨habandons, -⟩ | ⟨-, hfails, freed, -, hslot⟩ | ⟨hsucceeds, hslot⟩ :=
    ServerSlot.startServer_cases o.start hserver
  · exact absurd habandons ho.notAbandoned
  · refine .inr ⟨not_succeeds_of_fails hfails, ?_, decide_eq_true hfails, rfl, rfl, rfl⟩
    rw [hslot]
  · refine .inl ⟨hsucceeds, ?_, decide_eq_false ?_⟩
    · simp [hslot]
    · simp [hslot]

theorem Running.run {rounds : List LiveOutcomes} (hrounds : ∀ o ∈ rounds, Willing o)
    (h : Running m) :
    Running (run (rounds.map fun o => (.maintain, o)) m) := by
  induction rounds generalizing m with
  | nil => exact h
  | cons o rounds ih =>
    exact ih (fun d hd => hrounds d (List.mem_cons_of_mem _ hd))
      (h.maintain (hrounds o List.mem_cons_self).lockMaintain)

/-- The first round whose start succeeds decides. -/
theorem Starting.run {rounds : List LiveOutcomes} (hrounds : ∀ o ∈ rounds, Willing o)
    (h : Starting m) :
    let m' := LiveManager.run (rounds.map fun o => (.maintain, o)) m
    (Starting m' ∧ ¬ ∃ o ∈ rounds, o.start.Succeeds) ∨
    (Running m' ∧ ∃ o ∈ rounds, o.start.Succeeds) := by
  induction rounds generalizing m with
  | nil => exact .inl ⟨h, fun ⟨o, ho, _⟩ => absurd ho List.not_mem_nil⟩
  | cons o rounds ih =>
    have hrest := fun d hd => hrounds d (List.mem_cons_of_mem o hd)
    obtain ⟨hsucceeds, hrunning⟩ | ⟨hfails, hstarting⟩ := h.maintain (hrounds o List.mem_cons_self)
    · have hend := hrunning.run hrest
      exact .inr ⟨hend, o, List.mem_cons_self, hsucceeds⟩
    · refine (ih hrest hstarting).imp (fun ⟨hend, hnot⟩ => ⟨hend, ?_⟩) fun ⟨hend, hexists⟩ =>
        ⟨hend, ?_⟩
      · rintro ⟨d, hd, hsucceeds⟩
        obtain rfl | hd := List.mem_cons.1 hd
        · exact hfails hsucceeds
        · exact hnot ⟨d, hd, hsucceeds⟩
      · obtain ⟨d, hd, hsucceeds⟩ := hexists
        exact ⟨d, List.mem_cons_of_mem o hd, hsucceeds⟩

end LiveManager

open LiveManager ServerManager in
/-- **The server in memory follows the requests as if its starts succeeded.**  As long as no start
is left half-way, the manager does what it would do if a start that fails were one that the licenses
forbid: it goes through the same states, and does and tells the same.  Starts and stops alternate,
and there is a server exactly after a start. -/
theorem liveServer_refines (calls : List (ManagerCall × LiveOutcomes))
    (hcalls : ∀ c ∈ calls, ¬ c.2.start.Abandons) :
    (LiveManager.run calls .create).toManager = ServerManager.run
      (calls.map fun c => (c.1, c.2.asManager)) (createServerManager false) ∧
    (LiveManager.events calls .create).map LiveEvent.asManager = ServerManager.events
      (calls.map fun c => (c.1, c.2.asManager)) (createServerManager false) ∧
    Alternating (brackets ((LiveManager.events calls .create).map LiveEvent.asManager)) ∧
    (IsOpen (brackets ((LiveManager.events calls .create).map LiveEvent.asManager)) ↔
      (LiveManager.run calls .create).slot.server ≠ none) := by
  obtain ⟨hrun, hevents⟩ := run_toManager hcalls .create
  have hcreate : LiveManager.create.toManager = createServerManager false := rfl
  have halternates := run_alternates (calls.map fun c => (c.1, c.2.asManager))
    (createServerManager false) alternating_nil (by simp [createServerManager])
  rw [hcreate] at hrun hevents
  refine ⟨hrun, hevents, ?_, ?_⟩
  · rw [hevents]
    exact halternates.1
  · rw [hevents]
    refine halternates.2.trans ?_
    rw [← hrun]
    exact Option.isSome_iff_ne_none

/-- A start without memory for the server is tried again. -/
theorem liveServer_refines_of_retry :
    (LiveManager.run [(.request .start, ⟨.success, ⟨true, false, true, true, true, .none⟩⟩),
      (.maintain, ⟨.success, ⟨true, true, true, true, true, .none⟩⟩)] .create).toManager =
    ServerManager.run [(.request .start, ⟨.none, .none, false, .none, .none⟩),
      (.maintain, .success)] (createServerManager false) :=
  (liveServer_refines [(.request .start, ⟨.success, ⟨true, false, true, true, true, .none⟩⟩),
    (.maintain, ⟨.success, ⟨true, true, true, true, true, .none⟩⟩)] (by decide)).1

open LiveManager in
/-- **A start is tried again until it succeeds.**  Where there is no server and no shutdown is
pending, a request to start that is recorded and any rounds of maintenance after it, none of which
leaves a start half-way and all of which get the lock, the licenses and a configuration: there is a
server in the end exactly if one of the starts succeeded, and more is to be done exactly if there is
none. -/
theorem startManagedServer_retries (m : LiveManager) (o : LiveOutcomes) (rounds : List LiveOutcomes)
    (hserver : m.slot.server = none) (hshutdown : m.shutdown = false) (hlock : o.lockUpdate = .none)
    (hrounds : ∀ o' ∈ o :: rounds, Willing o') :
    let m' := run ((.request .start, o) :: rounds.map fun o => (.maintain, o)) m
    (m'.slot.server ≠ none ↔ ∃ o' ∈ o :: rounds, o'.start.Succeeds) ∧
      (m'.changeState = true ↔ m'.slot.server = none) := by
  set recorded : LiveManager := { m with
    userInterventionNeeded := false
    wantedStateFirst := true
    wantedStateNext := true
    changeState := true } with hrecorded
  -- the request goes on to a first round of maintenance
  have hrequest : (m.perform (.call (.request .start), o)).2.1 =
      (recorded.perform (.call .maintain, o)).2.1 := by
    simp [perform, request, updateWantedState, ManagerRequest.wanted, hlock, hshutdown, hrecorded]
  have hstarting : Starting recorded := ⟨hserver, rfl, rfl, rfl, rfl⟩
  intro m'
  have hrun : m' = run ((o :: rounds).map fun o => (.maintain, o)) recorded := by
    show run _ (m.perform (.call (.request .start), o)).2.1 = run _ (recorded.perform _).2.1
    rw [hrequest]
  obtain ⟨hend, hnot⟩ | ⟨hend, hexists⟩ := hstarting.run hrounds
  · rw [← hrun] at hend
    exact ⟨⟨fun h => absurd hend.server h, fun h => absurd h hnot⟩,
      ⟨fun _ => hend.server, fun _ => hend.changeState⟩⟩
  · rw [← hrun] at hend
    refine ⟨⟨fun _ => hexists, fun _ => hend.server⟩, ⟨fun h => ?_, fun h => absurd h hend.server⟩⟩
    rw [hend.changeState] at h
    cases h

/-- The network cannot be set up at first; one further round of maintenance starts the server. -/
theorem startManagedServer_retries_of_network :
    (LiveManager.run
      [(.request .start, ⟨.success, ⟨true, true, true, true, true, .networkBindFailed⟩⟩),
        (.maintain, ⟨.success, ⟨true, true, true, true, true, .none⟩⟩)] .create).slot.server ≠
          none :=
  (startManagedServer_retries .create ⟨.success, ⟨true, true, true, true, true, .networkBindFailed⟩⟩
    [⟨.success, ⟨true, true, true, true, true, .none⟩⟩] rfl rfl rfl (by
      intro o ho
      simp only [List.mem_cons, List.not_mem_nil, or_false] at ho
      obtain rfl | rfl := ho
      · exact ⟨rfl, rfl, rfl, by decide⟩
      · exact ⟨rfl, rfl, rfl, by decide⟩)).1.2
    ⟨_, List.mem_cons_of_mem _ List.mem_cons_self, by decide⟩

end XprcServer
