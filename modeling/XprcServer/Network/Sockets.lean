import XprcServer.Lib.Custody
import XprcServer.Lib.System

/-!
# Sockets and threads of the network server

`network.c`: the server thread accepts connections, puts them into slots and starts two threads for
each; the maintenance thread shuts down the connections that are closing, joins their threads and
frees the slots; any thread may close a connection with `close_network_connection` at any time; and
`destroy_network_server` closes the listening socket to stop the server thread.

The threads move one statement at a time wherever others can tell the difference.  In particular,
`close_network_connection` looks at `closing`, sets it, and closes the socket in three steps; there
is no lock.  What is joined and what is closed is counted.  A socket descriptor stands for the
socket, not for its number, and so does a `thrd_t` for the thread.

A slot that is reused is overwritten in one step; the statements of the setup follow.  The
maintenance thread may turn to the connections in any order.

* `connections_cleaned_up` : as long as calls of `close_network_connection` do not get in each
  other's way or in that of a slot that is reused, and connections are shut down only after both of
  their threads were started, every accepted socket is closed once, every thread is joined once, and
  slots are reused only when their threads have been joined; and when the server thread has stopped,
  the listening socket was closed once iff `destroy_network_server` was not called;
* `connections_not_cleaned_up` : without these conditions all of this fails.
-/

namespace XprcServer

open Lib

/-! ### The state -/

/-- `MAX_CONNECTIONS` -/
@[irreducible]
def maxConnections : ℕ := 1024

/-- `SERVER_MAX_CONSECUTIVE_ERRORS` -/
def serverMaxConsecutiveErrors : ℕ := 2000

/-- The threads of a connection. -/
inductive ConnectionThread where
  | send
  | recv
  deriving DecidableEq, Repr

/-- `network_connection_t`, without the send buffer; `thread` has a value if `thrd_create` has
succeeded for it. -/
structure ConnectionSlot where
  inUse : Bool
  sd : Option ℕ
  closing : Bool
  socketClosed : Bool
  thread : ConnectionThread → Option ℕ
  joined : ConnectionThread → Bool
  shutdown : Bool

/-- The memory of a connection is zeroed. -/
def ConnectionSlot.zeroed : ConnectionSlot :=
  ⟨false, none, false, false, fun _ => none, fun _ => false, false⟩

/-- Who calls `close_network_connection`: a thread of the connection, the server thread, the
maintenance thread or any other. -/
inductive Closer where
  | own (thread : ConnectionThread)
  | server
  | maintenance
  | other
  deriving DecidableEq, Repr

/-- A call of `close_network_connection` that has found `closing` unset; `marked` says that it has
set it since. -/
structure CloseCall where
  caller : Closer
  marked : Bool
  deriving DecidableEq, Repr

/-- The next statement of `run_server_thread` for a new connection. -/
inductive SetupStage where
  | sendMutex
  | sendWait
  | sendRingbuffer
  | sendThread
  | recvThread
  | newConnection
  deriving DecidableEq, Repr

/-- Where the server thread is. -/
inductive AcceptThread where
  /-- It is about to look at `shutdown` and `consecutive_errors`. -/
  | checking
  | accepting
  /-- It is about to look at slot `k`, for a socket that it has accepted. -/
  | searching (sd k : ℕ)
  | setup (i : Fin maxConnections) (stage : SetupStage)
  /-- The setup has failed, and the connection is being closed. -/
  | failing (i : Fin maxConnections)
  /-- The loop was left. -/
  | leaving
  /-- The listening socket was closed. -/
  | closed
  | stopped
  deriving DecidableEq, Repr

/-- Where the maintenance thread is; `success` is the variable of `shutdown_network_connection`. -/
inductive MaintenanceThread where
  | scanning
  | starting (i : Fin maxConnections)
  | closing (i : Fin maxConnections)
  | waiting (i : Fin maxConnections)
  | joining (i : Fin maxConnections)
  | joiningSend (i : Fin maxConnections) (success : Bool)
  | finishing (i : Fin maxConnections) (success : Bool)
  deriving DecidableEq, Repr

/-- Where `destroy_network_server` is, or the end of `create_network_server` if the maintenance
thread could not be started: both close the listening socket and wait for the server thread then. -/
inductive Destroyer where
  | idle
  | closing
  | joining
  deriving DecidableEq, Repr

/-- `network_server_t` with its threads; the calls of `close_network_connection` under way; and what
happened so far: the sockets that were accepted and how often they were closed, the threads that
were started and how often they were joined, the joins of threads that were never started, and how
often the listening socket was closed. -/
structure NetworkServer where
  connections : Fin maxConnections → ConnectionSlot
  shutdown : Bool
  serverThreadStopped : Bool
  consecutiveErrors : ℕ
  serverThread : AcceptThread
  maintenanceThread : MaintenanceThread
  destroyer : Destroyer
  calls : Fin maxConnections → List CloseCall
  sockets : ℕ
  closes : ℕ → ℕ
  threads : ℕ
  joins : ℕ → ℕ
  strayJoins : ℕ
  listeningCloses : ℕ

/-! ### The statements -/

/-- What can happen.  `ok` is the result of `thrd_join`. -/
inductive NetworkAct where
  -- the server thread
  | check
  | accept
  | acceptFails
  | search
  | setupSucceeds
  | setupFails
  | resume
  | closeListening
  | stop
  -- the maintenance thread
  | pick (i : Fin maxConnections)
  | start
  | requestClose
  | awaitClose
  | joinRecv (ok : Bool)
  | joinSend (ok : Bool)
  | finish
  -- calls of `close_network_connection`, the `k`-th one under way
  | call (caller : Closer) (i : Fin maxConnections)
  | mark (i : Fin maxConnections) (k : ℕ)
  | close (i : Fin maxConnections) (k : ℕ)
  -- `destroy_network_server`
  | destroy
  | destroyCloses
  deriving DecidableEq, Repr

namespace NetworkServer

variable (s : NetworkServer)

/-- Change a connection. -/
def modify (i : Fin maxConnections) (f : ConnectionSlot → ConnectionSlot) : NetworkServer :=
  { s with connections := Function.update s.connections i (f (s.connections i)) }

/-- The start of `close_network_connection`: it returns if `closing` is set. -/
def enterClose (caller : Closer) (i : Fin maxConnections) : NetworkServer :=
  if (s.connections i).closing then s
  else { s with calls := Function.update s.calls i (s.calls i ++ [⟨caller, false⟩]) }

/-- A thread is inside `close_network_connection`. -/
def Calls (caller : Closer) (i : Fin maxConnections) : Prop :=
  ∃ call ∈ s.calls i, call.caller = caller

instance (caller : Closer) (i : Fin maxConnections) : Decidable (s.Calls caller i) :=
  inferInstanceAs (Decidable (∃ call ∈ s.calls i, call.caller = caller))

/-- `close_socket` on an accepted socket. -/
def closeSocket (sd : Option ℕ) : NetworkServer :=
  match sd with
  | none => s
  | some d => { s with closes := Function.update s.closes d (s.closes d + 1) }

/-- A slot is overwritten for a new connection. -/
def assign (i : Fin maxConnections) (d : ℕ) : NetworkServer :=
  { s.modify i fun _ => { ConnectionSlot.zeroed with inUse := true, sd := some d } with
    serverThread := .setup i .sendMutex }

/-- A statement of the setup that starts a thread. -/
def startThread (i : Fin maxConnections) (thread : ConnectionThread) : NetworkServer :=
  { s.modify i fun c => { c with thread := Function.update c.thread thread (some s.threads) } with
    threads := s.threads + 1 }

/-- `thrd_join` for a thread of a connection, unless it has been joined; it waits until the thread
ends.  The `thrd_t` of a thread that was never started is zero, and anything may happen. -/
def join (i : Fin maxConnections) (thread : ConnectionThread) (ok : Bool) : Option NetworkServer :=
  let c := s.connections i
  let joined := s.modify i fun c => { c with joined := Function.update c.joined thread ok }
  if c.joined thread then some s
  else
    match c.thread thread with
    | none => some { joined with strayJoins := s.strayJoins + 1 }
    | some th =>
      if s.Calls (.own thread) i then none
      else if ok then some { joined with joins := Function.update s.joins th (s.joins th + 1) }
      else some s

/-- One statement of the server thread. -/
def execServer : NetworkAct → Option NetworkServer
  | .check =>
    if s.serverThread = .checking then
      if s.shutdown = false ∧ s.consecutiveErrors < serverMaxConsecutiveErrors then
        some { s with serverThread := .accepting }
      else some { s with serverThread := .leaving }
    else none
  | .accept =>
    if s.serverThread = .accepting then
      some { s with serverThread := .searching s.sockets 0, sockets := s.sockets + 1 }
    else none
  | .acceptFails =>
    if s.serverThread = .accepting then
      some { s with
        serverThread := .checking
        consecutiveErrors := if s.shutdown then s.consecutiveErrors else s.consecutiveErrors + 1 }
    else none
  | .search =>
    match s.serverThread with
    | .searching d k =>
      if h : k < maxConnections then
        if (s.connections ⟨k, h⟩).inUse then some { s with serverThread := .searching d (k + 1) }
        else some (s.assign ⟨k, h⟩ d)
      else some { s.closeSocket (some d) with serverThread := .checking }
    | _ => none
  | .setupSucceeds =>
    match s.serverThread with
    | .setup i .sendMutex => some { s with serverThread := .setup i .sendWait }
    | .setup i .sendWait => some { s with serverThread := .setup i .sendRingbuffer }
    | .setup i .sendRingbuffer => some { s with serverThread := .setup i .sendThread }
    | .setup i .sendThread =>
      some { s.startThread i .send with serverThread := .setup i .recvThread }
    | .setup i .recvThread =>
      some { s.startThread i .recv with serverThread := .setup i .newConnection }
    | .setup _ .newConnection => some { s with serverThread := .checking, consecutiveErrors := 0 }
    | _ => none
  | .setupFails =>
    match s.serverThread with
    | .setup i _ => some { s.enterClose .server i with
        serverThread := .failing i
        consecutiveErrors := s.consecutiveErrors + 1 }
    | _ => none
  | .resume =>
    match s.serverThread with
    | .failing i => if s.Calls .server i then none else some { s with serverThread := .checking }
    | _ => none
  | .closeListening =>
    if s.serverThread = .leaving then
      some { s with serverThread := .closed, listeningCloses := s.listeningCloses + 1 }
    else none
  | .stop =>
    if s.serverThread = .closed then
      some { s with serverThread := .stopped, serverThreadStopped := true }
    else none
  | _ => none

/-- One statement of the maintenance thread. -/
def execMaintenance : NetworkAct → Option NetworkServer
  -- a connection that is closing, or any one in use after the server thread has stopped for a
  -- shutdown
  | .pick i =>
    if s.maintenanceThread = .scanning ∧ (s.connections i).inUse = true ∧
        ((s.connections i).closing = true ∨ (s.shutdown = true ∧ s.serverThreadStopped = true)) then
      some { s with maintenanceThread := .starting i }
    else none
  | .start =>
    match s.maintenanceThread with
    | .starting i =>
      some { s.modify i fun c => { c with shutdown := true } with maintenanceThread := .closing i }
    | _ => none
  | .requestClose =>
    match s.maintenanceThread with
    | .closing i =>
      if (s.connections i).socketClosed then some { s with maintenanceThread := .joining i }
      else some { s.enterClose .maintenance i with maintenanceThread := .waiting i }
    | _ => none
  | .awaitClose =>
    match s.maintenanceThread with
    | .waiting i =>
      if s.Calls .maintenance i then none
      else
        some { s.modify i fun c => { c with socketClosed := true } with
          maintenanceThread := .joining i }
    | _ => none
  | .joinRecv ok =>
    match s.maintenanceThread with
    | .joining i => (s.join i .recv ok).map fun s' =>
        { s' with maintenanceThread := .joiningSend i ((s'.connections i).joined .recv) }
    | _ => none
  | .joinSend ok =>
    match s.maintenanceThread with
    | .joiningSend i success => (s.join i .send ok).map fun s' =>
        { s' with maintenanceThread := .finishing i (success && (s'.connections i).joined .send) }
    | _ => none
  | .finish =>
    match s.maintenanceThread with
    | .finishing i success =>
      if success then
        some { s.modify i fun c => { c with inUse := false } with maintenanceThread := .scanning }
      else some { s with maintenanceThread := .scanning }
    | _ => none
  | _ => none

/-- One statement of `close_network_connection`, called for a connection that was accepted, or of
`destroy_network_server`. -/
def execOther : NetworkAct → Option NetworkServer
  | .call caller i =>
    if (s.connections i).sd = none then none
    else
      match caller with
      | .own thread =>
        if (s.connections i).thread thread = none then none else some (s.enterClose caller i)
      | .other => some (s.enterClose caller i)
      | _ => none
  | .mark i k =>
    match (s.calls i)[k]? with
    | some ⟨caller, false⟩ =>
      some { s.modify i fun c => { c with closing := true } with
        calls := Function.update s.calls i ((s.calls i).set k ⟨caller, true⟩) }
    | _ => none
  | .close i k =>
    match (s.calls i)[k]? with
    | some ⟨_, true⟩ =>
      some { s.closeSocket (s.connections i).sd with
        calls := Function.update s.calls i ((s.calls i).eraseIdx k) }
    | _ => none
  | .destroy =>
    if s.destroyer = .idle then some { s with destroyer := .closing, shutdown := true } else none
  | .destroyCloses =>
    if s.destroyer = .closing then
      some { s with destroyer := .joining, listeningCloses := s.listeningCloses + 1 }
    else none
  | _ => none

/-- One statement of one thread. -/
def exec (act : NetworkAct) : Option NetworkServer :=
  (s.execServer act).or ((s.execMaintenance act).or (s.execOther act))

/-- The server once it listens: nothing was accepted yet. -/
def listening : NetworkServer where
  connections _ := .zeroed
  shutdown := false
  serverThreadStopped := false
  consecutiveErrors := 0
  serverThread := .checking
  maintenanceThread := .scanning
  destroyer := .idle
  calls _ := []
  sockets := 0
  closes _ := 0
  threads := 0
  joins _ := 0
  strayJoins := 0
  listeningCloses := 0

/-- No thread has found `closing` unset and is about to set it. -/
def Unraced (i : Fin maxConnections) : Prop :=
  (s.connections i).closing = true ∨ ∀ call ∈ s.calls i, call.marked = true

/-- The steps that do not go wrong: a call of `close_network_connection` does not start while
another one is about to set `closing`; a slot is not reused while a call is under way for it; and a
connection is shut down only if both of its threads were started. -/
def Clean : NetworkAct → Prop
  | .search =>
    match s.serverThread with
    | .searching _ k =>
      ∀ h : k < maxConnections, (s.connections ⟨k, h⟩).inUse = false → s.calls ⟨k, h⟩ = []
    | _ => True
  | .setupFails =>
    match s.serverThread with
    | .setup i _ => s.Unraced i
    | _ => True
  | .pick i => (s.connections i).thread .send ≠ none ∧ (s.connections i).thread .recv ≠ none
  | .requestClose =>
    match s.maintenanceThread with
    | .closing i => s.Unraced i
    | _ => True
  | .call _ i => s.Unraced i
  | _ => True

instance (i : Fin maxConnections) : Decidable (s.Unraced i) :=
  inferInstanceAs (Decidable (_ ∨ _))

instance (act : NetworkAct) : Decidable (s.Clean act) := by
  unfold Clean
  split
  all_goals try split
  all_goals infer_instance

end NetworkServer

/-- The runs of the network server. -/
def networkSystem : System NetworkServer NetworkAct where
  init s := s = .listening
  next s act s' := s.exec act = some s'

/-! ### What holds in a run -/

/-- The socket that the server thread has accepted and not put into a slot yet. -/
def AcceptThread.inHand : AcceptThread → Option ℕ
  | .searching d _ => some d
  | _ => none

/-- How often the server thread has closed the listening socket. -/
def AcceptThread.closesListening : AcceptThread → ℕ
  | .closed => 1
  | .stopped => 1
  | _ => 0

/-- How often `destroy_network_server` has closed the listening socket. -/
def Destroyer.closesListening : Destroyer → ℕ
  | .joining => 1
  | _ => 0

namespace NetworkServer

variable {s s' : NetworkServer} {i : Fin maxConnections}

/-- The accepted sockets: one may be in the hands of the server thread, the others are in slots. -/
def sdAt (s : NetworkServer) : Option (Fin maxConnections) → Option ℕ
  | none => s.serverThread.inHand
  | some i => (s.connections i).sd

/-- The socket was closed. -/
def ClosedAt (s : NetworkServer) : Option (Fin maxConnections) → Prop
  | none => False
  | some i => (s.connections i).closing = true ∧ s.calls i = []

/-- The threads of the connections. -/
def threadAt (s : NetworkServer) (p : Fin maxConnections × ConnectionThread) : Option ℕ :=
  (s.connections p.1).thread p.2

/-- The thread was joined. -/
def JoinedAt (s : NetworkServer) (p : Fin maxConnections × ConnectionThread) : Prop :=
  (s.connections p.1).joined p.2 = true

/-- A connection with the calls under way for it: there is at most one, and it has set `closing` iff
it is set.  A slot that is free again was closed, and its threads were joined. -/
structure Tidy (c : ConnectionSlot) (calls : List CloseCall) : Prop where
  single : calls = [] ∨ ∃ caller, calls = [⟨caller, c.closing⟩]
  unused : c.sd = none → calls = [] ∧ ∀ thread, c.thread thread = none
  unstarted : ∀ thread, c.thread thread = none → c.joined thread = false
  free : c.inUse = false → c.sd ≠ none → c.closing = true ∧ ∀ thread, c.joined thread = true
  socketClosed : c.socketClosed = true → c.closing = true

/-- What the server thread relies on for the connection that it sets up. -/
def ServerSound (connections : Fin maxConnections → ConnectionSlot) : AcceptThread → Prop
  | .setup i stage => (connections i).sd ≠ none ∧
      (stage ≠ .newConnection → (connections i).thread .recv = none) ∧
      (stage ≠ .newConnection → stage ≠ .recvThread → (connections i).thread .send = none)
  | _ => True

/-- A connection that can be shut down. -/
structure Shutting (c : ConnectionSlot) : Prop where
  inUse : c.inUse = true
  started : ∀ thread, c.thread thread ≠ none

/-- What the maintenance thread relies on for the connection that it shuts down. -/
def MaintenanceSound (connections : Fin maxConnections → ConnectionSlot)
    (calls : Fin maxConnections → List CloseCall) : MaintenanceThread → Prop
  | .scanning => True
  | .starting i => Shutting (connections i)
  | .closing i => Shutting (connections i)
  | .waiting i => Shutting (connections i) ∧
      ((connections i).closing = true ∨ ∃ call ∈ calls i, call.caller = .maintenance)
  | .joining i => Shutting (connections i) ∧ (connections i).closing = true
  | .joiningSend i success => Shutting (connections i) ∧ (connections i).closing = true ∧
      (success = true → (connections i).joined .recv = true)
  | .finishing i success => Shutting (connections i) ∧ (connections i).closing = true ∧
      (success = true → ∀ thread, (connections i).joined thread = true)

/-- The state of a run that has not gone wrong. -/
structure Sound (s : NetworkServer) : Prop where
  sockets : Custody s.sdAt s.ClosedAt s.sockets s.closes
  threads : Custody s.threadAt s.JoinedAt s.threads s.joins
  tidy : ∀ i, Tidy (s.connections i) (s.calls i)
  server : ServerSound s.connections s.serverThread
  maintenance : MaintenanceSound s.connections s.calls s.maintenanceThread
  stray : s.strayJoins = 0
  listening : s.listeningCloses = s.serverThread.closesListening + s.destroyer.closesListening

theorem listening_sound : Sound listening where
  sockets := .empty fun p => by cases p <;> rfl
  threads := .empty fun _ => rfl
  tidy _ := ⟨.inl rfl, fun _ => ⟨rfl, fun _ => rfl⟩, fun _ _ => rfl,
    fun _ hsd => absurd rfl hsd, nofun⟩
  server := trivial
  maintenance := trivial
  stray := rfl
  listening := rfl

/-- The server thread moves on, with the same socket in its hands as before. -/
theorem Sound.server_moves (h : s.Sound) {pc : AcceptThread} {stopped : Bool} {errors closes : ℕ}
    (hhand : pc.inHand = s.serverThread.inHand) (hpc : ServerSound s.connections pc)
    (hcloses : closes + s.serverThread.closesListening = s.listeningCloses + pc.closesListening) :
    Sound { s with
      serverThread := pc
      serverThreadStopped := stopped
      consecutiveErrors := errors
      listeningCloses := closes } where
  sockets := by
    refine h.sockets.congr (fun p => ?_) fun p _ => ?_
    · cases p with
      | none => exact hhand
      | some i => rfl
    · cases p <;> exact Iff.rfl
  threads := h.threads
  tidy := h.tidy
  server := hpc
  maintenance := h.maintenance
  stray := h.stray
  listening := by
    have hlistening := h.listening
    dsimp only
    omega

/-- The maintenance thread moves on. -/
theorem Sound.maintenance_moves (h : s.Sound) {pc : MaintenanceThread}
    (hpc : MaintenanceSound s.connections s.calls pc) :
    Sound { s with maintenanceThread := pc } where
  sockets := h.sockets.congr (fun p => by cases p <;> rfl) fun p _ => by cases p <;> exact Iff.rfl
  threads := h.threads
  tidy := h.tidy
  server := h.server
  maintenance := hpc
  stray := h.stray
  listening := h.listening

/-! ### Changes of a connection -/

/-- A connection that is shut down stays one; it does not open again, its threads stay joined, and a
call under way for it ends only once it is closing. -/
structure Grows (c : ConnectionSlot) (calls : List CloseCall) (c' : ConnectionSlot)
    (calls' : List CloseCall) : Prop where
  shutting : Shutting c'
  closing : c.closing = true → c'.closing = true
  calls : c'.closing = false → ∀ call ∈ calls, call ∈ calls'
  joined : ∀ thread, c.joined thread = true → c'.joined thread = true

variable {connections connections' : Fin maxConnections → ConnectionSlot}
  {calls calls' : Fin maxConnections → List CloseCall}

theorem Shutting.grows {c : ConnectionSlot} (h : Shutting c) (calls : List CloseCall) :
    Grows c calls c calls :=
  ⟨h, fun hc => hc, fun _ _ hcall => hcall, fun _ hj => hj⟩

theorem Shutting.joins {c : ConnectionSlot} (h : Shutting c) (thread : ConnectionThread)
    (calls : List CloseCall) :
    Grows c calls { c with joined := Function.update c.joined thread true } calls := by
  refine ⟨⟨h.inUse, h.started⟩, fun hc => hc, fun _ _ hcall => hcall, fun other hj => ?_⟩
  by_cases ht : other = thread
  · subst ht
    exact Function.update_self _ _ _
  · change Function.update c.joined thread true other = true
    rw [Function.update_of_ne ht]
    exact hj

theorem MaintenanceSound.mono {pc : MaintenanceThread} (h : MaintenanceSound connections calls pc)
    (hgrows : ∀ i, Shutting (connections i) →
      Grows (connections i) (calls i) (connections' i) (calls' i)) :
    MaintenanceSound connections' calls' pc := by
  cases pc with
  | scanning => trivial
  | starting i => exact (hgrows i h).shutting
  | closing i => exact (hgrows i h).shutting
  | waiting i =>
    obtain ⟨hshut, hcall⟩ := h
    have hg := hgrows i hshut
    refine ⟨hg.shutting, ?_⟩
    cases hopen : (connections' i).closing with
    | true => exact .inl rfl
    | false =>
      rcases hcall with hclosing | ⟨call, hmem, hcaller⟩
      · rw [hg.closing hclosing] at hopen
        cases hopen
      · exact .inr ⟨call, hg.calls hopen call hmem, hcaller⟩
  | joining i =>
    have hg := hgrows i h.1
    exact ⟨hg.shutting, hg.closing h.2⟩
  | joiningSend i success =>
    obtain ⟨hshut, hclosing, hjoined⟩ := h
    have hg := hgrows i hshut
    exact ⟨hg.shutting, hg.closing hclosing, fun hs => hg.joined _ (hjoined hs)⟩
  | finishing i success =>
    obtain ⟨hshut, hclosing, hjoined⟩ := h
    have hg := hgrows i hshut
    exact ⟨hg.shutting, hg.closing hclosing, fun hs thread => hg.joined thread (hjoined hs thread)⟩

theorem ServerSound.mono {pc : AcceptThread} (h : ServerSound connections pc)
    (hsd : ∀ i, (connections' i).sd = (connections i).sd)
    (hthread : ∀ i, (connections' i).thread = (connections i).thread) :
    ServerSound connections' pc := by
  cases pc with
  | setup i stage =>
    dsimp only [ServerSound] at h ⊢
    rw [hsd, hthread]
    exact h
  | _ => trivial

/-- A connection is changed, and possibly the calls for it: what is in its slot stays there, and the
socket is as open as before. -/
theorem Sound.touch (h : s.Sound) {c : ConnectionSlot} {calls : List CloseCall}
    (hsd : c.sd = (s.connections i).sd) (hthread : c.thread = (s.connections i).thread)
    (hjoined : c.joined = (s.connections i).joined)
    (hclosed : (c.closing = true ∧ calls = []) ↔
      ((s.connections i).closing = true ∧ s.calls i = []))
    (htidy : Tidy c calls)
    (hgrows : s.maintenanceThread ≠ .scanning → Shutting (s.connections i) →
      Grows (s.connections i) (s.calls i) c calls) :
    Sound { s with
      connections := Function.update s.connections i c
      calls := Function.update s.calls i calls } where
  sockets := by
    refine h.sockets.congr (fun p => ?_) fun p _ => ?_
    · cases p with
      | none => rfl
      | some j =>
        by_cases hj : j = i
        · subst hj
          simp [sdAt, hsd]
        · simp [sdAt, hj]
    · cases p with
      | none => exact Iff.rfl
      | some j =>
        by_cases hj : j = i
        · subst hj
          simpa [ClosedAt] using hclosed
        · simp [ClosedAt, hj]
  threads := by
    refine h.threads.congr (fun p => ?_) fun p _ => ?_
    · by_cases hj : p.1 = i
      · simp [threadAt, hj, hthread]
      · simp [threadAt, hj]
    · by_cases hj : p.1 = i
      · simp [JoinedAt, hj, hjoined]
      · simp [JoinedAt, hj]
  tidy j := by
    by_cases hj : j = i
    · subst hj
      simpa using htidy
    · simpa [hj] using h.tidy j
  server := by
    refine h.server.mono (fun j => ?_) fun j => ?_
    · by_cases hj : j = i
      · subst hj
        simp [hsd]
      · simp [hj]
    · by_cases hj : j = i
      · subst hj
        simp [hthread]
      · simp [hj]
  maintenance := by
    by_cases hscan : s.maintenanceThread = .scanning
    · rw [hscan]
      trivial
    · refine h.maintenance.mono fun j hshut => ?_
      by_cases hj : j = i
      · subst hj
        simpa using hgrows hscan hshut
      · simpa [hj] using hshut.grows (s.calls j)
  stray := h.stray
  listening := h.listening

theorem Sound.modify (h : s.Sound) {f : ConnectionSlot → ConnectionSlot}
    (hsd : (f (s.connections i)).sd = (s.connections i).sd)
    (hthread : (f (s.connections i)).thread = (s.connections i).thread)
    (hjoined : (f (s.connections i)).joined = (s.connections i).joined)
    (hclosing : (f (s.connections i)).closing = (s.connections i).closing)
    (htidy : Tidy (f (s.connections i)) (s.calls i))
    (hshut : s.maintenanceThread ≠ .scanning → Shutting (s.connections i) →
      Shutting (f (s.connections i))) :
    (s.modify i f).Sound := by
  have hsound := h.touch hsd hthread hjoined (by rw [hclosing]) htidy
    fun hscan hold => ⟨hshut hscan hold, fun hc => hclosing.trans hc, fun _ _ hcall => hcall,
      fun thread hj => by rw [hjoined]; exact hj⟩
  rw [Function.update_eq_self] at hsound
  exact hsound

/-! ### Calls of `close_network_connection` -/

@[simp]
theorem enterClose_connections (caller : Closer) (i : Fin maxConnections) :
    (s.enterClose caller i).connections = s.connections := by
  unfold enterClose
  split <;> rfl

@[simp]
theorem enterClose_serverThread (caller : Closer) (i : Fin maxConnections) :
    (s.enterClose caller i).serverThread = s.serverThread := by
  unfold enterClose
  split <;> rfl

/-- A thread enters `close_network_connection` while no other is about to set `closing`. -/
theorem Sound.enterClose (h : s.Sound) (caller : Closer) (hsd : (s.connections i).sd ≠ none)
    (hun : s.Unraced i) :
    (s.enterClose caller i).Sound ∧
      ((s.connections i).closing = true ∨ (s.enterClose caller i).Calls caller i) := by
  unfold NetworkServer.enterClose
  cases hclosing : (s.connections i).closing with
  | true => exact ⟨by simpa using h, .inl rfl⟩
  | false =>
    have hnone : s.calls i = [] := by
      rcases (h.tidy i).single with hnone | ⟨first, hfirst⟩
      · exact hnone
      · -- a call under way would be about to set `closing`
        have hmarked := hun.resolve_left (by rw [hclosing]; decide)
            ⟨first, (s.connections i).closing⟩
          (by rw [hfirst]; exact List.mem_cons_self)
        rw [hclosing] at hmarked
        cases hmarked
    have htidy : Tidy (s.connections i) [⟨caller, false⟩] :=
      ⟨.inr ⟨caller, by rw [hclosing]⟩, fun himpossible => absurd himpossible hsd,
        (h.tidy i).unstarted, (h.tidy i).free, (h.tidy i).socketClosed⟩
    have hsound := h.touch rfl rfl rfl (by simp [hclosing]) htidy
      fun _ hshut => ⟨hshut, fun hc => hc, by simp [hnone], fun _ hj => hj⟩
    rw [Function.update_eq_self] at hsound
    simp only [Bool.false_eq_true, ↓reduceIte, hnone, List.nil_append]
    exact ⟨hsound, .inr ⟨⟨caller, false⟩, by simp, rfl⟩⟩

theorem Tidy.call {c : ConnectionSlot} {calls : List CloseCall} (h : Tidy c calls) {k : ℕ}
    {caller : Closer} {marked : Bool} (hk : calls[k]? = some ⟨caller, marked⟩) :
    calls = [⟨caller, marked⟩] ∧ k = 0 ∧ c.closing = marked ∧ ∃ d, c.sd = some d := by
  have hsd : ∃ d, c.sd = some d := by
    cases hsd : c.sd with
    | some d => exact ⟨d, rfl⟩
    | none =>
      rw [(h.unused hsd).1] at hk
      cases hk
  rcases h.single with hnone | ⟨first, hfirst⟩
  · rw [hnone] at hk
    cases hk
  · rw [hfirst] at hk
    cases k with
    | zero =>
      obtain ⟨rfl, hmarked⟩ := CloseCall.mk.inj (Option.some.inj hk)
      exact ⟨by rw [hfirst, hmarked], rfl, hmarked, hsd⟩
    | succ k => cases hk

theorem Sound.mark (h : s.Sound) {k : ℕ} {caller : Closer}
    (hk : (s.calls i)[k]? = some ⟨caller, false⟩) :
    Sound { s.modify i fun c => { c with closing := true } with
      calls := Function.update s.calls i ((s.calls i).set k ⟨caller, true⟩) } := by
  obtain ⟨hcalls, rfl, hclosing, d, hsd⟩ := (h.tidy i).call hk
  have htidy : Tidy { s.connections i with closing := true } [⟨caller, true⟩] := by
    refine ⟨.inr ⟨caller, rfl⟩, fun hnone => ?_, (h.tidy i).unstarted, fun hfree hne => ?_,
      fun _ => rfl⟩
    · rw [show (s.connections i).sd = none from hnone] at hsd
      cases hsd
    · exact ⟨rfl, ((h.tidy i).free hfree hne).2⟩
  rw [hcalls]
  exact h.touch rfl rfl rfl (by simp [hcalls]) htidy
    fun _ hshut => ⟨⟨hshut.inUse, hshut.started⟩, fun _ => rfl, nofun, fun _ hj => hj⟩

theorem Sound.close (h : s.Sound) {k : ℕ} {caller : Closer}
    (hk : (s.calls i)[k]? = some ⟨caller, true⟩) :
    Sound { s.closeSocket (s.connections i).sd with
      calls := Function.update s.calls i ((s.calls i).eraseIdx k) } := by
  obtain ⟨hcalls, rfl, hclosing, d, hsd⟩ := (h.tidy i).call hk
  have hopen : ¬ s.ClosedAt (some i) := by
    rintro ⟨-, hnone⟩
    rw [hcalls] at hnone
    cases hnone
  have hheld : s.sdAt (some i) = some d := hsd
  rw [hsd, hcalls]
  exact {
    sockets := by
      refine (h.sockets.spend hheld hopen).congr (fun p => by cases p <;> rfl) fun p _ => ?_
      cases p with
      | none => simp [ClosedAt]
      | some j =>
        by_cases hj : j = i
        · subst hj
          simp [ClosedAt, closeSocket, hclosing]
        · simp [ClosedAt, closeSocket, hj]
    threads := h.threads
    tidy := by
      intro j
      by_cases hj : j = i
      · subst hj
        have htidy := h.tidy j
        simpa [closeSocket] using
          (⟨.inl rfl, fun hnone => ⟨rfl, (htidy.unused hnone).2⟩, htidy.unstarted, htidy.free,
            htidy.socketClosed⟩ : Tidy (s.connections j) [])
      · simpa [closeSocket, hj] using h.tidy j
    server := h.server
    maintenance := by
      refine h.maintenance.mono fun j hshut => ?_
      by_cases hj : j = i
      · subst hj
        refine ⟨hshut, fun hc => hc, fun hno => ?_, fun _ hjoined => hjoined⟩
        rw [show (s.connections j).closing = false from hno] at hclosing
        cases hclosing
      · simpa [closeSocket, hj] using hshut.grows (s.calls j)
    stray := h.stray
    listening := h.listening }

/-! ### The server thread -/

theorem Sound.accept (h : s.Sound) (hpc : s.serverThread = .accepting) :
    Sound { s with serverThread := .searching s.sockets 0, sockets := s.sockets + 1 } where
  sockets := by
    have hempty : s.sdAt none = none := by
      rw [sdAt, hpc]
      rfl
    have hissue := h.sockets.issue (p := none) fun d hd => by
      rw [hempty] at hd
      cases hd
    refine hissue.congr (fun p => ?_) fun p _ => ?_
    · cases p with
      | none =>
        rw [Function.update_self]
        rfl
      | some i =>
        rw [Function.update_of_ne (Option.some_ne_none i)]
        rfl
    · cases p with
      | none => exact ⟨False.elim, fun hand => absurd rfl hand.1⟩
      | some i => exact ⟨fun hclosed => ⟨nofun, hclosed⟩, fun hand => hand.2⟩
  threads := h.threads
  tidy := h.tidy
  server := trivial
  maintenance := h.maintenance
  stray := h.stray
  listening := by
    have hlistening := h.listening
    rw [hpc] at hlistening
    exact hlistening

theorem Sound.refuse (h : s.Sound) {d k : ℕ} (hpc : s.serverThread = .searching d k) :
    Sound { s.closeSocket (some d) with serverThread := .checking } where
  sockets := by
    have hheld : s.sdAt none = some d := by
      rw [sdAt, hpc]
      rfl
    refine (h.sockets.discard hheld id).congr (fun p => ?_) fun p _ => ?_
    · cases p with
      | none =>
        rw [Function.update_self]
        rfl
      | some i =>
        rw [Function.update_of_ne (Option.some_ne_none i)]
        rfl
    · cases p <;> exact Iff.rfl
  threads := h.threads
  tidy := h.tidy
  server := trivial
  maintenance := h.maintenance
  stray := h.stray
  listening := by
    have hlistening := h.listening
    rw [hpc] at hlistening
    exact hlistening

/-- What is left in a free slot is closed and joined. -/
theorem Tidy.reusable {c : ConnectionSlot} (h : Tidy c []) (hfree : c.inUse = false) :
    (∀ d, c.sd = some d → c.closing = true) ∧
      ∀ thread th, c.thread thread = some th → c.joined thread = true := by
  refine ⟨fun d hd => (h.free hfree (by rw [hd]; exact Option.some_ne_none d)).1,
    fun thread th hth => ?_⟩
  refine (h.free hfree fun hnone => ?_).2 thread
  rw [(h.unused hnone).2] at hth
  cases hth

/-- The socket is put into a free slot that no call is under way for. -/
theorem Sound.assign (h : s.Sound) {d k : ℕ} (hpc : s.serverThread = .searching d k)
    (hfree : (s.connections i).inUse = false) (hcalls : s.calls i = []) : (s.assign i d).Sound where
  sockets := by
    have hheld : s.sdAt none = some d := by
      rw [sdAt, hpc]
      rfl
    have htidy := h.tidy i
    rw [hcalls] at htidy
    have hmove := h.sockets.move (Option.some_ne_none i).symm hheld id
      fun d hd => ⟨(htidy.reusable hfree).1 d hd, hcalls⟩
    refine hmove.congr (fun p => ?_) fun p _ => ?_
    · cases p with
      | none => rfl
      | some j =>
        by_cases hj : j = i
        · subst hj
          simp [sdAt, NetworkServer.assign, NetworkServer.modify]
        · simp [sdAt, NetworkServer.assign, NetworkServer.modify, hj]
    · cases p with
      | none => simp [ClosedAt]
      | some j =>
        by_cases hj : j = i
        · subst hj
          simp [ClosedAt, NetworkServer.assign, NetworkServer.modify, ConnectionSlot.zeroed]
        · simp [ClosedAt, NetworkServer.assign, NetworkServer.modify, hj]
  threads := by
    have htidy := h.tidy i
    rw [hcalls] at htidy
    have hjoined := (htidy.reusable hfree).2
    have hempty : ∀ {holds : Fin maxConnections × ConnectionThread → Option ℕ} thread,
        (∀ p th, holds p = some th → s.threadAt p = some th) →
        ∀ th, holds (i, thread) = some th → s.JoinedAt (i, thread) :=
      fun thread hsub th hth => hjoined thread th (hsub _ th hth)
    have hsend := h.threads.empties (hempty .send fun _ _ hp => hp)
    have hrecv := hsend.empties (hempty .recv fun p th hp => by
      by_cases hp' : p = (i, .send)
      · simp [hp'] at hp
      · rwa [Function.update_of_ne hp'] at hp)
    refine hrecv.congr (fun p => ?_) fun p hp => ?_
    · obtain ⟨j, thread⟩ := p
      by_cases hj : j = i
      · subst hj
        cases thread <;> simp [threadAt, NetworkServer.assign, NetworkServer.modify,
          ConnectionSlot.zeroed]
      · simp [threadAt, NetworkServer.assign, NetworkServer.modify, hj]
    · obtain ⟨j, thread⟩ := p
      by_cases hj : j = i
      · subst hj
        cases thread <;> simp at hp
      · simp [JoinedAt, NetworkServer.assign, NetworkServer.modify, hj]
  tidy j := by
    by_cases hj : j = i
    · subst hj
      simp only [NetworkServer.assign, NetworkServer.modify, Function.update_self, hcalls]
      exact ⟨.inl rfl, nofun, fun _ _ => rfl, nofun, nofun⟩
    · simpa [NetworkServer.assign, NetworkServer.modify, hj] using h.tidy j
  server := by
    simp [NetworkServer.assign, NetworkServer.modify, ServerSound, ConnectionSlot.zeroed]
  maintenance := by
    refine h.maintenance.mono fun j hshut => ?_
    by_cases hj : j = i
    · subst hj
      rw [hshut.inUse] at hfree
      cases hfree
    · simpa [NetworkServer.assign, NetworkServer.modify, hj] using hshut.grows (s.calls j)
  stray := h.stray
  listening := by
    have hlistening := h.listening
    rw [hpc] at hlistening
    exact hlistening

theorem Sound.startThread (h : s.Sound) {thread : ConnectionThread} {pc : AcceptThread}
    (hthread : (s.connections i).thread thread = none) (hsd : (s.connections i).sd ≠ none)
    (hhand : pc.inHand = s.serverThread.inHand)
    (hpc : ServerSound (s.startThread i thread).connections pc)
    (hcloses : pc.closesListening = s.serverThread.closesListening) :
    Sound { s.startThread i thread with serverThread := pc } where
  sockets := by
    refine h.sockets.congr (fun p => ?_) fun p _ => ?_
    · cases p with
      | none => exact hhand
      | some j =>
        by_cases hj : j = i
        · subst hj
          simp [sdAt, NetworkServer.startThread, NetworkServer.modify]
        · simp [sdAt, NetworkServer.startThread, NetworkServer.modify, hj]
    · cases p with
      | none => exact Iff.rfl
      | some j =>
        by_cases hj : j = i
        · subst hj
          simp [ClosedAt, NetworkServer.startThread, NetworkServer.modify]
        · simp [ClosedAt, NetworkServer.startThread, NetworkServer.modify, hj]
  threads := by
    have hempty : s.threadAt (i, thread) = none := hthread
    have hissue := h.threads.issue (p := (i, thread)) fun th hth => by
      rw [hempty] at hth
      cases hth
    refine hissue.congr (fun p => ?_) fun p _ => ?_
    · obtain ⟨j, other⟩ := p
      by_cases hj : j = i
      · subst hj
        by_cases ht : other = thread
        · subst ht
          simp [threadAt, NetworkServer.startThread, NetworkServer.modify]
        · simp [threadAt, NetworkServer.startThread, NetworkServer.modify, ht]
      · simp [threadAt, NetworkServer.startThread, NetworkServer.modify, hj]
    · obtain ⟨j, other⟩ := p
      by_cases hj : j = i
      · subst hj
        by_cases ht : other = thread
        · subst ht
          simp [JoinedAt, NetworkServer.startThread, NetworkServer.modify,
            (h.tidy j).unstarted other hthread]
        · simp [JoinedAt, NetworkServer.startThread, NetworkServer.modify, ht]
      · simp [JoinedAt, NetworkServer.startThread, NetworkServer.modify, hj]
  tidy j := by
    by_cases hj : j = i
    · subst hj
      have htidy := h.tidy j
      simp only [NetworkServer.startThread, NetworkServer.modify, Function.update_self]
      refine ⟨htidy.single, fun hnone => absurd hnone hsd, fun other hother => ?_, htidy.free,
        htidy.socketClosed⟩
      by_cases ht : other = thread
      · subst ht
        simp at hother
      · exact htidy.unstarted other (by simpa [ht] using hother)
    · simpa [NetworkServer.startThread, NetworkServer.modify, hj] using h.tidy j
  server := hpc
  maintenance := by
    refine h.maintenance.mono fun j hshut => ?_
    by_cases hj : j = i
    · -- a connection that is shut down has its threads already
      subst hj
      exact absurd hthread (hshut.started thread)
    · simpa [NetworkServer.startThread, NetworkServer.modify, hj] using hshut.grows (s.calls j)
  stray := h.stray
  listening := by
    change s.listeningCloses = _
    rw [hcloses]
    exact h.listening

theorem execServer_sound (h : s.Sound) {act : NetworkAct} (hclean : s.Clean act)
    (hexec : s.execServer act = some s') : s'.Sound := by
  cases act with
  | check =>
    dsimp only [execServer] at hexec
    split at hexec
    case isFalse => cases hexec
    case isTrue hpc =>
      split at hexec <;> cases hexec <;>
        exact h.server_moves (by rw [hpc]; rfl) trivial (by rw [hpc]; rfl)
  | accept =>
    dsimp only [execServer] at hexec
    split at hexec
    case isFalse => cases hexec
    case isTrue hpc =>
      cases hexec
      exact h.accept hpc
  | acceptFails =>
    dsimp only [execServer] at hexec
    split at hexec
    case isFalse => cases hexec
    case isTrue hpc =>
      cases hexec
      exact h.server_moves (by rw [hpc]; rfl) trivial (by rw [hpc]; rfl)
  | search =>
    dsimp only [execServer] at hexec
    split at hexec
    case h_2 => cases hexec
    case h_1 d k hpc =>
      split at hexec
      case isFalse =>
        cases hexec
        exact h.refuse hpc
      case isTrue hk =>
        split at hexec
        case isTrue =>
          cases hexec
          exact h.server_moves (by rw [hpc]; rfl) trivial (by rw [hpc]; rfl)
        case isFalse hfree =>
          cases hexec
          have hunused : (s.connections ⟨k, hk⟩).inUse = false := by simpa using hfree
          rw [Clean, hpc] at hclean
          exact h.assign hpc hunused (hclean hk hunused)
  | setupSucceeds =>
    have hserver := h.server
    dsimp only [execServer] at hexec
    split at hexec
    case h_7 => cases hexec
    case h_4 i hpc =>
      cases hexec
      rw [hpc] at hserver
      obtain ⟨hsd, hrecv, hsend⟩ := hserver
      refine h.startThread (hsend (by decide) (by decide)) hsd (by rw [hpc]; rfl) ?_
        (by rw [hpc]; rfl)
      simpa [ServerSound, NetworkServer.startThread, NetworkServer.modify] using
        ⟨hsd, hrecv (by decide)⟩
    case h_5 i hpc =>
      cases hexec
      rw [hpc] at hserver
      obtain ⟨hsd, hrecv, -⟩ := hserver
      refine h.startThread (hrecv (by decide)) hsd (by rw [hpc]; rfl) ?_ (by rw [hpc]; rfl)
      simpa [ServerSound, NetworkServer.startThread, NetworkServer.modify] using hsd
    case h_6 i hpc =>
      cases hexec
      exact h.server_moves (by rw [hpc]; rfl) trivial (by rw [hpc]; rfl)
    all_goals
      rename_i i hpc
      cases hexec
      rw [hpc] at hserver
      obtain ⟨hsd, hrecv, hsend⟩ := hserver
      exact h.server_moves (by rw [hpc]; rfl)
        ⟨hsd, fun _ => hrecv (by decide), fun _ _ => hsend (by decide) (by decide)⟩
          (by rw [hpc]; rfl)
  | setupFails =>
    have hserver := h.server
    dsimp only [execServer] at hexec
    split at hexec
    case h_2 => cases hexec
    case h_1 i stage hpc =>
      cases hexec
      rw [hpc] at hserver
      rw [Clean, hpc] at hclean
      have hsound := (h.enterClose .server hserver.1 hclean).1
      exact hsound.server_moves (by rw [enterClose_serverThread, hpc]; rfl) trivial
        (by rw [enterClose_serverThread, hpc]; rfl)
  | resume =>
    dsimp only [execServer] at hexec
    split at hexec
    case h_2 => cases hexec
    case h_1 i hpc =>
      split at hexec
      case isTrue => cases hexec
      case isFalse =>
        cases hexec
        exact h.server_moves (by rw [hpc]; rfl) trivial (by rw [hpc]; rfl)
  | closeListening =>
    dsimp only [execServer] at hexec
    split at hexec
    case isFalse => cases hexec
    case isTrue hpc =>
      cases hexec
      exact h.server_moves (by rw [hpc]; rfl) trivial (by rw [hpc]; rfl)
  | stop =>
    dsimp only [execServer] at hexec
    split at hexec
    case isFalse => cases hexec
    case isTrue hpc =>
      cases hexec
      exact h.server_moves (by rw [hpc]; rfl) trivial (by rw [hpc]; rfl)
  | _ => cases hexec

/-! ### The maintenance thread -/

theorem Sound.joined (h : s.Sound) {thread : ConnectionThread} {th : ℕ}
    (hth : (s.connections i).thread thread = some th)
    (hnot : (s.connections i).joined thread ≠ true) :
    Sound { s.modify i fun c => { c with joined := Function.update c.joined thread true } with
      joins := Function.update s.joins th (s.joins th + 1) } where
  sockets := by
    refine h.sockets.congr (fun p => ?_) fun p _ => ?_
    · cases p with
      | none => rfl
      | some j =>
        by_cases hj : j = i
        · subst hj
          simp [sdAt, NetworkServer.modify]
        · simp [sdAt, NetworkServer.modify, hj]
    · cases p with
      | none => exact Iff.rfl
      | some j =>
        by_cases hj : j = i
        · subst hj
          simp [ClosedAt, NetworkServer.modify]
        · simp [ClosedAt, NetworkServer.modify, hj]
  threads := by
    have hheld : s.threadAt (i, thread) = some th := hth
    refine (h.threads.spend hheld hnot).congr (fun p => ?_) fun p _ => ?_
    · by_cases hj : p.1 = i
      · simp [threadAt, NetworkServer.modify, hj]
      · simp [threadAt, NetworkServer.modify, hj]
    · obtain ⟨j, other⟩ := p
      by_cases hj : j = i
      · subst hj
        by_cases ht : other = thread
        · subst ht
          simp [JoinedAt, NetworkServer.modify]
        · simp [JoinedAt, NetworkServer.modify, ht]
      · simp [JoinedAt, NetworkServer.modify, hj]
  tidy j := by
    by_cases hj : j = i
    · subst hj
      have htidy := h.tidy j
      simp only [NetworkServer.modify, Function.update_self]
      refine ⟨htidy.single, htidy.unused, fun other hother => ?_, fun hfree hsd => ?_,
        htidy.socketClosed⟩
      · have ht : other ≠ thread := by
          rintro rfl
          rw [show (s.connections j).thread other = none from hother] at hth
          cases hth
        simpa [ht] using htidy.unstarted other hother
      · exact absurd ((htidy.free hfree hsd).2 thread) hnot
    · simpa [NetworkServer.modify, hj] using h.tidy j
  server := by
    refine h.server.mono (fun j => ?_) fun j => ?_
    · by_cases hj : j = i
      · subst hj
        simp [NetworkServer.modify]
      · simp [NetworkServer.modify, hj]
    · by_cases hj : j = i
      · subst hj
        simp [NetworkServer.modify]
      · simp [NetworkServer.modify, hj]
  maintenance := by
    refine h.maintenance.mono fun j hshut => ?_
    by_cases hj : j = i
    · subst hj
      simpa [NetworkServer.modify] using hshut.joins thread (s.calls j)
    · simpa [NetworkServer.modify, hj] using hshut.grows (s.calls j)
  stray := h.stray
  listening := h.listening

/-- A thread of a connection that is shut down is joined, if it has not been. -/
theorem Sound.join (h : s.Sound) {thread : ConnectionThread} {ok : Bool}
    (hshut : Shutting (s.connections i)) (hjoin : s.join i thread ok = some s') :
    s'.Sound ∧ Grows (s.connections i) (s.calls i) (s'.connections i) (s'.calls i) := by
  unfold NetworkServer.join at hjoin
  dsimp only at hjoin
  split at hjoin
  case isTrue =>
    cases hjoin
    exact ⟨h, hshut.grows _⟩
  case isFalse hnot =>
    split at hjoin
    case h_1 hnone => exact absurd hnone (hshut.started thread)
    case h_2 th hth =>
      split at hjoin
      case isTrue => cases hjoin
      case isFalse =>
        split at hjoin
        case isFalse =>
          cases hjoin
          exact ⟨h, hshut.grows _⟩
        case isTrue hok =>
          cases hjoin
          subst hok
          exact ⟨h.joined hth hnot,
            by simpa [NetworkServer.modify] using hshut.joins thread (s.calls i)⟩

theorem execMaintenance_sound (h : s.Sound) {act : NetworkAct} (hclean : s.Clean act)
    (hexec : s.execMaintenance act = some s') : s'.Sound := by
  have hmaintenance := h.maintenance
  cases act with
  | pick i =>
    dsimp only [execMaintenance] at hexec
    split at hexec
    case isFalse => cases hexec
    case isTrue hpick =>
      cases hexec
      have hshut : Shutting (s.connections i) :=
        ⟨hpick.2.1, fun thread => by cases thread with | send => exact hclean.1 | recv =>
          exact hclean.2⟩
      exact h.maintenance_moves hshut
  | start =>
    dsimp only [execMaintenance] at hexec
    split at hexec
    case h_2 => cases hexec
    case h_1 i hpc =>
      cases hexec
      rw [hpc] at hmaintenance
      have htidy := h.tidy i
      have hsound : (s.modify i fun c => { c with shutdown := true }).Sound :=
        h.modify rfl rfl rfl rfl
          ⟨htidy.single, htidy.unused, htidy.unstarted, htidy.free, htidy.socketClosed⟩
          fun _ hshut => ⟨hshut.inUse, hshut.started⟩
      refine hsound.maintenance_moves ?_
      simpa [MaintenanceSound, NetworkServer.modify] using
        (⟨hmaintenance.inUse, hmaintenance.started⟩ :
          Shutting { s.connections i with shutdown := true })
  | requestClose =>
    dsimp only [execMaintenance] at hexec
    split at hexec
    case h_2 => cases hexec
    case h_1 i hpc =>
      rw [hpc] at hmaintenance
      have hshut : Shutting (s.connections i) := hmaintenance
      split at hexec
      case isTrue hclosed =>
        cases hexec
        exact h.maintenance_moves ⟨hshut, (h.tidy i).socketClosed hclosed⟩
      case isFalse =>
        cases hexec
        have hsd : (s.connections i).sd ≠ none := fun hnone =>
          hshut.started .send (((h.tidy i).unused hnone).2 .send)
        rw [Clean, hpc] at hclean
        obtain ⟨hsound, hcalls⟩ := h.enterClose .maintenance hsd hclean
        refine hsound.maintenance_moves ?_
        rw [MaintenanceSound, enterClose_connections]
        exact ⟨hshut, hcalls⟩
  | awaitClose =>
    dsimp only [execMaintenance] at hexec
    split at hexec
    case h_2 => cases hexec
    case h_1 i hpc =>
      rw [hpc] at hmaintenance
      obtain ⟨hshut, hcall⟩ := hmaintenance
      split at hexec
      case isTrue => cases hexec
      case isFalse hdone =>
        cases hexec
        have hclosing := hcall.resolve_right hdone
        have htidy := h.tidy i
        have hsound : (s.modify i fun c => { c with socketClosed := true }).Sound :=
          h.modify rfl rfl rfl rfl
            ⟨htidy.single, htidy.unused, htidy.unstarted, htidy.free, fun _ => hclosing⟩
            fun _ hshut => ⟨hshut.inUse, hshut.started⟩
        refine hsound.maintenance_moves ?_
        have hshut' : Shutting { s.connections i with socketClosed := true } :=
          ⟨hshut.inUse, hshut.started⟩
        simpa [MaintenanceSound, NetworkServer.modify] using ⟨hshut', hclosing⟩
  | joinRecv ok =>
    dsimp only [execMaintenance] at hexec
    split at hexec
    case h_2 => cases hexec
    case h_1 i hpc =>
      rw [hpc] at hmaintenance
      obtain ⟨s₁, hjoin, rfl⟩ := Option.map_eq_some_iff.1 hexec
      obtain ⟨hsound, hgrows⟩ := h.join hmaintenance.1 hjoin
      exact hsound.maintenance_moves ⟨hgrows.shutting, hgrows.closing hmaintenance.2, fun hj => hj⟩
  | joinSend ok =>
    dsimp only [execMaintenance] at hexec
    split at hexec
    case h_2 => cases hexec
    case h_1 i success hpc =>
      rw [hpc] at hmaintenance
      obtain ⟨hshut, hclosing, hrecv⟩ := hmaintenance
      obtain ⟨s₁, hjoin, rfl⟩ := Option.map_eq_some_iff.1 hexec
      obtain ⟨hsound, hgrows⟩ := h.join hshut hjoin
      refine hsound.maintenance_moves ⟨hgrows.shutting, hgrows.closing hclosing,
        fun hboth thread => ?_⟩
      rw [Bool.and_eq_true] at hboth
      cases thread with
      | send => exact hboth.2
      | recv => exact hgrows.joined .recv (hrecv hboth.1)
  | finish =>
    dsimp only [execMaintenance] at hexec
    split at hexec
    case h_2 => cases hexec
    case h_1 i success hpc =>
      rw [hpc] at hmaintenance
      obtain ⟨hshut, hclosing, hjoined⟩ := hmaintenance
      have hscan : Sound { s with maintenanceThread := .scanning } := h.maintenance_moves trivial
      split at hexec
      case isFalse =>
        cases hexec
        exact hscan
      case isTrue hsuccess =>
        cases hexec
        have htidy := h.tidy i
        -- the slot becomes free: its connection was closed, and both threads were joined
        have hfreed : (NetworkServer.modify { s with maintenanceThread := .scanning } i
            fun c => { c with inUse := false }).Sound :=
          hscan.modify rfl rfl rfl rfl
            ⟨htidy.single, htidy.unused, htidy.unstarted, fun _ _ => ⟨hclosing, hjoined hsuccess⟩,
              htidy.socketClosed⟩
            fun hne => absurd rfl hne
        exact hfreed
  | _ => cases hexec

theorem execOther_sound (h : s.Sound) {act : NetworkAct} (hclean : s.Clean act)
    (hexec : s.execOther act = some s') : s'.Sound := by
  cases act with
  | call caller i =>
    dsimp only [execOther] at hexec
    split at hexec
    case isTrue => cases hexec
    case isFalse hsd =>
      split at hexec
      case h_1 thread =>
        split at hexec
        case isTrue => cases hexec
        case isFalse =>
          cases hexec
          exact (h.enterClose _ hsd hclean).1
      case h_2 =>
        cases hexec
        exact (h.enterClose _ hsd hclean).1
      case h_3 => cases hexec
  | mark i k =>
    dsimp only [execOther] at hexec
    split at hexec
    case h_2 => cases hexec
    case h_1 caller hk =>
      cases hexec
      exact h.mark hk
  | close i k =>
    dsimp only [execOther] at hexec
    split at hexec
    case h_2 => cases hexec
    case h_1 caller hk =>
      cases hexec
      exact h.close hk
  | destroy =>
    dsimp only [execOther] at hexec
    split at hexec
    case isFalse => cases hexec
    case isTrue hidle =>
      cases hexec
      refine ⟨h.sockets.congr (fun p => by cases p <;> rfl) fun p _ => by cases p <;> exact Iff.rfl,
        h.threads, h.tidy, h.server, h.maintenance, h.stray, ?_⟩
      have hlistening := h.listening
      rw [hidle] at hlistening
      exact hlistening
  | destroyCloses =>
    dsimp only [execOther] at hexec
    split at hexec
    case isFalse => cases hexec
    case isTrue hclosing =>
      cases hexec
      refine ⟨h.sockets.congr (fun p => by cases p <;> rfl) fun p _ => by cases p <;> exact Iff.rfl,
        h.threads, h.tidy, h.server, h.maintenance, h.stray, ?_⟩
      have hlistening := h.listening
      rw [hclosing] at hlistening
      exact congrArg (· + 1) hlistening
  | _ => cases hexec

/-- What one step preserves. -/
theorem exec_sound (h : s.Sound) {act : NetworkAct} (hclean : s.Clean act)
    (hexec : s.exec act = some s') : s'.Sound := by
  rcases Option.or_eq_some_iff.1 hexec with hserver | ⟨-, hrest⟩
  · exact execServer_sound h hclean hserver
  · rcases Option.or_eq_some_iff.1 hrest with hmaintenance | ⟨-, hother⟩
    · exact execMaintenance_sound h hclean hmaintenance
    · exact execOther_sound h hclean hother

/-! ### Runs -/

theorem reachable_sound (h : (networkSystem.restrict Clean).Reachable s) : s.Sound := by
  refine h.invariant ?_ fun s act s' _ hsound hstep => exec_sound hsound hstep.1 hstep.2
  rintro s rfl
  exact listening_sound

/-- The server keeps track of its sockets and threads. -/
structure CleansUp (s : NetworkServer) : Prop where
  /-- No accepted socket is closed twice. -/
  closed_once : ∀ d, s.closes d ≤ 1
  /-- A socket that was not closed is in the hands of the server thread, or belongs to a connection
  that is not closing or is being closed. -/
  closed : ∀ d, d < s.sockets → s.closes d = 1 ∨ s.serverThread.inHand = some d ∨
    ∃ i, (s.connections i).sd = some d ∧ ((s.connections i).closing = false ∨ s.calls i ≠ [])
  /-- No thread is joined twice, and only threads that were started are joined. -/
  joined_once : ∀ th, s.joins th ≤ 1
  joined_started : s.strayJoins = 0 ∧ ∀ th, s.joins th ≠ 0 → th < s.threads
  /-- A thread that was not joined belongs to a connection that is in use. -/
  joined : ∀ th, th < s.threads → s.joins th = 1 ∨
    ∃ i thread, (s.connections i).inUse = true ∧ (s.connections i).thread thread = some th
  /-- A slot is free only when the threads that were started for it have been joined. -/
  free : ∀ i thread th, (s.connections i).inUse = false →
  (s.connections i).thread thread = some th →
    s.joins th = 1
  /-- At the end, everything was closed. -/
  settled : s.serverThread.inHand = none → (∀ i, (s.connections i).inUse = false ∧ s.calls i = []) →
    ∀ d, d < s.sockets → s.closes d = 1
  /-- The listening socket is closed once if the server is not destroyed, and twice if it is. -/
  listening_once : s.destroyer = .idle → s.listeningCloses ≤ 1
  listening : s.serverThread = .stopped → s.destroyer ≠ .closing →
    (s.listeningCloses = 1 ↔ s.destroyer = .idle)

theorem Sound.free_closed (h : s.Sound) {d : ℕ} (hfree : (s.connections i).inUse = false)
    (hsd : (s.connections i).sd = some d) : (s.connections i).closing = true :=
  ((h.tidy i).free hfree (by rw [hsd]; exact Option.some_ne_none d)).1

theorem Sound.free_joined (h : s.Sound) {thread : ConnectionThread} {th : ℕ}
    (hfree : (s.connections i).inUse = false) (hth : (s.connections i).thread thread = some th) :
    s.joins th = 1 := by
  refine h.threads.used (i, thread) th hth (((h.tidy i).free hfree fun hnone => ?_).2 thread)
  rw [((h.tidy i).unused hnone).2] at hth
  cases hth

theorem Sound.open_held (h : s.Sound) {d : ℕ} (hlt : d < s.sockets) (hopen : s.closes d ≠ 1) :
    s.serverThread.inHand = some d ∨
      ∃ i, (s.connections i).sd = some d ∧
        ((s.connections i).closing = false ∨ s.calls i ≠ []) := by
  obtain ⟨p, hp, hnot⟩ := h.sockets.held_of_count hlt hopen
  cases p with
  | none => exact .inl hp
  | some i =>
    refine .inr ⟨i, hp, ?_⟩
    cases hclosing : (s.connections i).closing with
    | false => exact .inl rfl
    | true => exact .inr fun hnone => hnot ⟨hclosing, hnone⟩

theorem Sound.cleansUp (h : s.Sound) : s.CleansUp where
  closed_once := h.sockets.count_le_one
  closed d hlt := by
    by_cases hclosed : s.closes d = 1
    · exact .inl hclosed
    · exact .inr (h.open_held hlt hclosed)
  joined_once := h.threads.count_le_one
  joined_started := by
    refine ⟨h.stray, fun th hth => ?_⟩
    by_contra hge
    exact hth (h.threads.fresh th (Nat.le_of_not_lt hge))
  joined th hlt := by
    by_cases hjoined : s.joins th = 1
    · exact .inl hjoined
    · obtain ⟨⟨i, thread⟩, hp, -⟩ := h.threads.held_of_count hlt hjoined
      refine .inr ⟨i, thread, ?_, hp⟩
      cases hfree : (s.connections i).inUse with
      | true => rfl
      | false => exact absurd (h.free_joined hfree hp) hjoined
  free _ _ _ hfree hth := h.free_joined hfree hth
  settled hhand hslots d hlt := by
    by_contra hopen
    rcases h.open_held hlt hopen with hheld | ⟨i, hsd, hclosing | hcalls⟩
    · rw [hhand] at hheld
      cases hheld
    · rw [h.free_closed (hslots i).1 hsd] at hclosing
      cases hclosing
    · exact hcalls (hslots i).2
  listening_once hidle := by
    rw [h.listening, hidle]
    cases s.serverThread <;> exact Nat.le_of_ble_eq_true rfl
  listening hstopped hclosing := by
    rw [h.listening, hstopped]
    cases hdestroyer : s.destroyer with
    | idle => decide
    | closing => exact absurd hdestroyer hclosing
    | joining => decide

/-- As long as calls of `close_network_connection` do not get in each other's way or in that of a
slot that is reused, and only connections with both threads are shut down, the server keeps track of
its sockets and threads. -/
theorem connections_cleaned_up (h : (networkSystem.restrict Clean).Reachable s) : s.CleansUp :=
  (reachable_sound h).cleansUp

/-- Take steps one after another, all of them allowed by `guard`. -/
def run (guard : NetworkServer → NetworkAct → Prop) [∀ s act, Decidable (guard s act)]
    (s : NetworkServer) (acts : List NetworkAct) : Option NetworkServer :=
  acts.foldlM (fun s act => if guard s act then s.exec act else none) s

theorem reachable_run {guard : NetworkServer → NetworkAct → Prop} [∀ s act, Decidable (guard s act)]
    {acts : List NetworkAct} (h : (networkSystem.restrict guard).Reachable s)
    (hrun : s.run guard acts = some s') : (networkSystem.restrict guard).Reachable s' := by
  unfold run at hrun
  induction acts generalizing s with
  | nil =>
    cases hrun
    exact h
  | cons act acts ih =>
    rw [List.foldlM_cons] at hrun
    obtain ⟨s₁, hstep, hrest⟩ := Option.bind_eq_some_iff.1 hrun
    split at hstep
    case isTrue hguard => exact ih (h.allowed act hguard hstep) hrest
    case isFalse => cases hstep

/-- The first slot. -/
def firstSlot : Fin maxConnections := ⟨0, by rw [maxConnections]; decide⟩

/-- A connection is accepted in the first slot, and its threads are started. -/
def connect : List NetworkAct :=
  [.check, .accept, .search, .setupSucceeds, .setupSucceeds, .setupSucceeds, .setupSucceeds,
    .setupSucceeds, .setupSucceeds]

/-- The maintenance thread shuts down the connection in the first slot. -/
def shutDown : List NetworkAct :=
  [.pick firstSlot, .start, .requestClose, .awaitClose, .joinRecv true, .joinSend true, .finish]

/-- A connection comes and goes. -/
theorem connections_cleaned_up_after_run : ∃ s : NetworkServer, s.CleansUp ∧ s.sockets = 1 ∧
    s.threads = 2 ∧ s.closes 0 = 1 ∧ s.joins 0 = 1 ∧ s.joins 1 = 1 ∧
    (s.connections firstSlot).inUse = false := by
  have hrun : ((listening.run Clean (connect ++
      [.call .other firstSlot, .mark firstSlot 0, .close firstSlot 0] ++ shutDown)).map fun s =>
      (s.sockets, s.threads, s.closes 0, s.joins 0, s.joins 1, (s.connections firstSlot).inUse)) =
      some (1, 2, 1, 1, 1, false) := by
    decide +kernel
  obtain ⟨s, hs, heq⟩ := Option.map_eq_some_iff.1 hrun
  simp only [Prod.mk.injEq] at heq
  exact ⟨s, connections_cleaned_up (reachable_run (.start rfl) hs), heq⟩

/-- What goes wrong otherwise: a destroyed server closes the listening socket twice; two threads
that find `closing` unset both close the socket; a connection whose setup has failed is shut down,
and a thread that was never started is joined; and a call that is slow closes the next socket in the
slot in place of its own. -/
theorem connections_not_cleaned_up :
    (∃ s, networkSystem.Reachable s ∧ s.serverThread = .stopped ∧ s.listeningCloses = 2) ∧
    (∃ s, networkSystem.Reachable s ∧ s.closes 0 = 2) ∧
    (∃ s, networkSystem.Reachable s ∧ s.threads = 0 ∧ s.strayJoins = 1) ∧
    ∃ s, networkSystem.Reachable s ∧ s.closes 0 = 0 ∧ s.closes 1 = 2 := by
  have hreachable : ∀ acts s, listening.run (fun _ _ => True) acts = some s →
      networkSystem.Reachable s :=
    fun acts s hrun => (reachable_run (.start rfl) hrun).of_restrict
  refine ⟨?_, ?_, ?_, ?_⟩
  · have hrun :
        ((listening.run (fun _ _ => True) [.check, .destroy, .destroyCloses, .acceptFails, .check,
          .closeListening, .stop]).map fun s => (s.serverThread, s.listeningCloses)) =
        some (.stopped, 2) := by
      decide +kernel
    obtain ⟨s, hs, heq⟩ := Option.map_eq_some_iff.1 hrun
    simp only [Prod.mk.injEq] at heq
    exact ⟨s, hreachable _ s hs, heq⟩
  · have hrun : ((listening.run (fun _ _ => True) (connect ++ [.call .other firstSlot,
        .call (.own .recv) firstSlot, .mark firstSlot 0, .mark firstSlot 1, .close firstSlot 0,
        .close firstSlot 0])).map fun s => s.closes 0) = some 2 := by
      decide +kernel
    obtain ⟨s, hs, heq⟩ := Option.map_eq_some_iff.1 hrun
    exact ⟨s, hreachable _ s hs, heq⟩
  · have hrun : ((listening.run (fun _ _ => True) [.check, .accept, .search, .setupFails,
        .mark firstSlot 0, .close firstSlot 0, .resume, .pick firstSlot, .start, .requestClose,
        .awaitClose, .joinRecv false]).map fun s => (s.threads, s.strayJoins)) = some (0, 1) := by
      decide +kernel
    obtain ⟨s, hs, heq⟩ := Option.map_eq_some_iff.1 hrun
    simp only [Prod.mk.injEq] at heq
    exact ⟨s, hreachable _ s hs, heq⟩
  · have hrun : ((listening.run (fun _ _ => True) (connect ++ [.call .other firstSlot,
        .mark firstSlot 0] ++ shutDown ++ [.check, .accept, .search, .close firstSlot 0,
        .call .other firstSlot, .mark firstSlot 0, .close firstSlot 0])).map fun s =>
        (s.closes 0, s.closes 1)) = some (0, 2) := by
      decide +kernel
    obtain ⟨s, hs, heq⟩ := Option.map_eq_some_iff.1 hrun
    simp only [Prod.mk.injEq] at heq
    exact ⟨s, hreachable _ s hs, heq⟩

end NetworkServer

end XprcServer
