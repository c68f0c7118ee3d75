import XprcServer.Lib.System
import XprcServer.Network.Receive

/-!
# Setting up a connection

`run_server_thread` spawns the receive thread of a connection before it calls `new_connection`,
which creates the session in place: `create_session` stores the pointer to the new session in
`connection->handler_reference` right after the allocation and fills the session in afterwards.
The receive thread passes whatever the reference holds when a line is complete.

Here the server thread sets the connection up statement by statement (`Setup`), while a client
sends characters and the receive thread works through them (`Receiver.receiveByte`).

* `line_finds_session` : as long as no client completes a line before its session has been created,
  every line is delivered to a session whose creation has completed;
* `line_finds_no_session` : a client that does not wait gets its line delivered to no session.
-/

namespace XprcServer

open Lib

/-- How far `create_session` has come with a session that is not complete. -/
inductive SessionStage where
  /-- The memory is zeroed. -/
  | zeroed
  | mutex
  | connection
  | server
  | channels
  /-- The map of configurations exists and is empty. -/
  | commandConfigs
  /-- The default configurations of `left` commands are missing. -/
  | configuring (left : ℕ)
  deriving DecidableEq, Repr

/-- What `connection->handler_reference` points to when it is not NULL. -/
inductive SessionRef where
  | unfinished (stage : SessionStage)
  | complete
  | destroyed
  deriving DecidableEq, Repr

/-- Where the server thread is with a connection it has accepted. -/
inductive Setup where
  /-- The receive thread is not running yet. -/
  | accepted
  /-- The connection was given up before the receive thread was spawned. -/
  | abandoned
  /-- The receive thread is running; `create_session` has not allocated the session. -/
  | spawned
  | building (stage : SessionStage)
  /-- `create_session` has failed and destroys the session. -/
  | unwinding
  | created
  | registered
  /-- `new_connection` has failed. -/
  | failed (ref : Option SessionRef)
  | ready
  | closing (ref : Option SessionRef)
  deriving DecidableEq, Repr

namespace Setup

/-- `connection->handler_reference` -/
def handlerReference : Setup → Option SessionRef
  | accepted => none
  | abandoned => none
  | spawned => none
  | building stage => some (.unfinished stage)
  | unwinding => some .destroyed
  | created => some .complete
  | registered => some .complete
  | failed ref => ref
  | ready => some .complete
  | closing ref => ref

/-- The receive thread is running. -/
def Receiving : Setup → Prop
  | accepted => False
  | abandoned => False
  | _ => True

end Setup

/-- The steps of `create_session` that fill the session in. -/
inductive Builds : SessionStage → SessionStage → Prop
  | mtxInit : Builds .zeroed .mutex
  | setConnection : Builds .mutex .connection
  | setServer : Builds .connection .server
  | createChannelsTable : Builds .server .channels
  | createHashmap : Builds .channels .commandConfigs
  | listCommandNames (n : ℕ) : Builds .commandConfigs (.configuring n)
  | putConfig (n : ℕ) : Builds (.configuring (n + 1)) (.configuring n)

/-- The steps of `create_session` that can fail and make it destroy the session. -/
inductive GoesToError : SessionStage → Prop
  | createChannelsTable : GoesToError .server
  | createHashmap : GoesToError .channels
  | listCommandNames : GoesToError .commandConfigs
  | putConfig (n : ℕ) : GoesToError (.configuring (n + 1))

/-- The steps of the server thread on one connection: the end of the loop of `run_server_thread`
with `new_connection`. -/
inductive SetupStep : Setup → Setup → Prop
  | abandon : SetupStep .accepted .abandoned
  | spawn : SetupStep .accepted .spawned
  /-- There is no command factory or no memory. -/
  | notAllocated : SetupStep .spawned (.failed none)
  | allocate : SetupStep .spawned (.building .zeroed)
  | build {stage stage' : SessionStage} (h : Builds stage stage') :
      SetupStep (.building stage) (.building stage')
  /-- `create_session` returns at once and leaves the reference as it is. -/
  | mtxInitFails : SetupStep (.building .zeroed) (.failed (some (.unfinished .zeroed)))
  | goToError {stage : SessionStage} (h : GoesToError stage) :
      SetupStep (.building stage) .unwinding
  | clearReference : SetupStep .unwinding (.failed none)
  | complete : SetupStep (.building (.configuring 0)) .created
  | registerFails : SetupStep .created (.failed (some .complete))
  | register : SetupStep .created .registered
  | greetingFails : SetupStep .registered (.failed (some .complete))
  | greet : SetupStep .registered .ready
  | close {ref : Option SessionRef} : SetupStep (.failed ref) (.closing ref)

/-- A session that is complete stays so. -/
theorem SetupStep.complete_stays {c c' : Setup} (h : SetupStep c c')
    (hc : c.handlerReference = some .complete) : c'.handlerReference = some .complete := by
  cases h with
  | abandon => cases hc
  | spawn => cases hc
  | notAllocated => cases hc
  | allocate => cases hc
  | build => cases hc
  | mtxInitFails => cases hc
  | goToError => cases hc
  | clearReference => cases hc
  | complete => cases hc
  | registerFails => rfl
  | register => rfl
  | greetingFails => rfl
  | greet => rfl
  | close => exact hc

/-! ### Interleavings -/

/-- A connection that is being set up: the server thread, what the client has sent and how much of
it the receive thread has taken.  The receive thread notes the references it has called
`on_line_received` with. -/
structure Connecting where
  setup : Setup
  sent : List UInt8
  taken : ℕ
  receiver : Receiver (List (Option SessionRef))

/-- Who moves. -/
inductive ConnectingAct where
  | server
  | client (ch : UInt8)
  | receive

/-- The steps of the server thread, the client and the receive thread.  The receive thread may have
passed its check of `connection->closing` before the server thread closed the connection. -/
inductive ConnectingStep : Connecting → ConnectingAct → Connecting → Prop
  | server {s : Connecting} {c : Setup} (h : SetupStep s.setup c) :
      ConnectingStep s .server { s with setup := c }
  | client {s : Connecting} (ch : UInt8) :
      ConnectingStep s (.client ch) { s with sent := s.sent ++ [ch] }
  | receive {s : Connecting} {ch : UInt8} (hrunning : s.setup.Receiving)
      (hch : s.sent[s.taken]? = some ch) :
      ConnectingStep s .receive { s with
        taken := s.taken + 1
        receiver := s.receiver.receiveByte
          (fun calls _ _ => calls ++ [s.setup.handlerReference]) ch }

/-- A connection is set up while its client is already sending. -/
def connectingSystem : System Connecting ConnectingAct where
  init s := ∃ stack, s = ⟨.accepted, [], 0, .start stack []⟩
  next := ConnectingStep

/-- The receive loop over a stream of characters, without a handler. -/
def reading (stream : List UInt8) : Receiver Unit :=
  (Receiver.start (fun _ => 0) ()).receive (fun _ _ _ => ()) stream

/-- The client completes a line only if its session has been created. -/
def LinesWhenCreated (s : Connecting) : ConnectingAct → Prop
  | .client ch => (reading (s.sent ++ [ch])).lines = [] ∨ s.setup.handlerReference = some .complete
  | _ => True

theorem reading_append (stream more : List UInt8) :
    reading (stream ++ more) = (reading stream).receive (fun _ _ _ => ()) more :=
  Receiver.receive_append _ stream more

/-- What holds in every run in which the client waits for its session. -/
structure ConnectingInvariant (s : Connecting) : Prop where
  shape : s.receiver.shape = (reading (s.sent.take s.taken)).shape
  bounded : s.taken ≤ s.sent.length
  quiet : s.setup.handlerReference ≠ some .complete → (reading s.sent).lines = []
  calls : ∀ ref ∈ s.receiver.handler, ref = some .complete

namespace ConnectingInvariant

variable {s : Connecting}

theorem step_server {c : Setup} (hs : ConnectingInvariant s) (h : SetupStep s.setup c) :
    ConnectingInvariant { s with setup := c } where
  shape := hs.shape
  bounded := hs.bounded
  quiet hc := hs.quiet fun hcomplete => hc (h.complete_stays hcomplete)
  calls := hs.calls

theorem step_client (hs : ConnectingInvariant s) {ch : UInt8}
    (hguard : LinesWhenCreated s (.client ch)) :
    ConnectingInvariant { s with sent := s.sent ++ [ch] } where
  shape := by
    rw [List.take_append_of_le_length hs.bounded]
    exact hs.shape
  bounded := by
    rw [List.length_append]
    exact Nat.le_add_right_of_le hs.bounded
  quiet hc := hguard.resolve_right hc
  calls := hs.calls

theorem step_receive (hs : ConnectingInvariant s) {ch : UInt8} (hch : s.sent[s.taken]? = some ch) :
    ConnectingInvariant { s with
      taken := s.taken + 1
      receiver := s.receiver.receiveByte
        (fun calls _ _ => calls ++ [s.setup.handlerReference]) ch } := by
  obtain ⟨htaken, hget⟩ := List.getElem?_eq_some_iff.1 hch
  have htake : s.sent.take (s.taken + 1) = s.sent.take s.taken ++ [ch] := by
    rw [List.take_add_one, hch]
    rfl
  have hshape : (s.receiver.receiveByte
      (fun calls _ _ => calls ++ [s.setup.handlerReference]) ch).shape =
        (reading (s.sent.take (s.taken + 1))).shape := by
    rw [htake, reading_append]
    exact Receiver.receiveByte_shape hs.shape ch
  refine ⟨hshape, htaken, hs.quiet, fun ref href => ?_⟩
  rcases s.receiver.receiveByte_handler ch with hsame | ⟨hlines, hcall⟩
  · rw [hsame] at href
    exact hs.calls ref href
  · rw [hcall, List.mem_append, List.mem_singleton] at href
    rcases href with href | rfl
    · exact hs.calls ref href
    · -- a line was completed, so the session is
      by_contra hincomplete
      have hquiet := hs.quiet hincomplete
      rw [← List.take_append_drop (s.taken + 1) s.sent, reading_append] at hquiet
      have hnone := Receiver.lines_of_receive hquiet
      simp only [Receiver.shape, Prod.mk.injEq, hnone, List.length_nil, List.length_eq_zero_iff]
        at hshape
      exact hlines hshape.2.2

theorem step {s' : Connecting} {a : ConnectingAct} (hs : ConnectingInvariant s)
    (hguard : LinesWhenCreated s a) (h : ConnectingStep s a s') : ConnectingInvariant s' := by
  cases h with
  | server h => exact hs.step_server h
  | client ch => exact hs.step_client hguard
  | receive _ hch => exact hs.step_receive hch

end ConnectingInvariant

theorem connectingInvariant_reachable {s : Connecting}
    (h : (connectingSystem.restrict LinesWhenCreated).Reachable s) : ConnectingInvariant s := by
  refine h.invariant ?_ fun s a s' _ hs hn => hs.step hn.1 hn.2
  rintro s ⟨stack, rfl⟩
  exact ⟨rfl, Nat.le_refl _, fun _ => rfl, fun _ href => nomatch href⟩

/-- **Lines find a session.**  In every run in which the client completes a line only after its
session was created, `on_line_received` is called only with a reference to a session whose creation
has completed. -/
theorem line_finds_session {s : Connecting}
    (h : (connectingSystem.restrict LinesWhenCreated).Reachable s) {ref : Option SessionRef}
    (href : ref ∈ s.receiver.handler) : ref = some .complete :=
  (connectingInvariant_reachable h).calls ref href

/-- A connection that was just accepted. -/
def accepting : Connecting := ⟨.accepted, [], 0, .start (fun _ => 0) []⟩

/-- A client sends a line after its session was created. -/
theorem line_finds_session_waiting :
    ∃ s, (connectingSystem.restrict LinesWhenCreated).Reachable s ∧
      some .complete ∈ s.receiver.handler ∧
      ∀ ref ∈ s.receiver.handler, ref = some .complete := by
  have start : (connectingSystem.restrict LinesWhenCreated).Reachable accepting :=
    .start ⟨_, rfl⟩
  have spawned := start.allowed .server trivial (.server .spawn)
  have allocated := spawned.allowed .server trivial (.server .allocate)
  have mutex := allocated.allowed .server trivial (.server (.build .mtxInit))
  have connection := mutex.allowed .server trivial (.server (.build .setConnection))
  have server := connection.allowed .server trivial (.server (.build .setServer))
  have channels := server.allowed .server trivial (.server (.build .createChannelsTable))
  have configs := channels.allowed .server trivial (.server (.build .createHashmap))
  have listed := configs.allowed .server trivial (.server (.build (.listCommandNames 1)))
  have configured := listed.allowed .server trivial (.server (.build (.putConfig 0)))
  have created := configured.allowed .server trivial (.server .complete)
  have typed := created.allowed (.client 118) (.inr rfl) (.client 118)
  have ended := typed.allowed (.client 10) (.inr rfl) (.client 10)
  have taken := ended.allowed .receive trivial (.receive trivial rfl)
  have delivered := taken.allowed .receive trivial (.receive trivial rfl)
  exact ⟨_, delivered, .head _, fun ref href => line_finds_session delivered href⟩

/-- A client sends a line right after it connected: the line is delivered before there is a
session. -/
theorem line_finds_no_session :
    ∃ s, connectingSystem.Reachable s ∧ none ∈ s.receiver.handler := by
  have start : (connectingSystem.restrict fun _ _ => True).Reachable accepting := .start ⟨_, rfl⟩
  have spawned := start.allowed .server trivial (.server .spawn)
  have typed := spawned.allowed (.client 118) trivial (.client 118)
  have ended := typed.allowed (.client 10) trivial (.client 10)
  have taken := ended.allowed .receive trivial (.receive trivial rfl)
  have delivered := taken.allowed .receive trivial (.receive trivial rfl)
  exact ⟨_, delivered.of_restrict, .head _⟩

end XprcServer
