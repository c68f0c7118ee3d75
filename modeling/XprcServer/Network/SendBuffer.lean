import XprcServer.Basic
import XprcServer.Lib.Ring
import XprcServer.Lib.System
import Mathlib.Algebra.Order.Group.Int

/-!
# The send buffer of a connection

`network.c`: `send_to_network` copies a message into the ring buffer of a connection, under the
send mutex; `run_send_thread` determines a chunk under the mutex, hands it to the socket without
the mutex, and advances the read position under the mutex again.

The two sides interleave as steps of `sendSystem`.  A section under the mutex is one step.  The
`send` call runs without it and may take any part of its chunk, so the bytes leave the buffer
one by one (`SendAct.handOver`), with calls of `send_to_network` in between.

* `sendToNetwork_spec` : a call is refused for lack of capacity exactly if the message does not
  fit, and then changes nothing; otherwise it appends the message to the pending bytes;
* `reachable_sendInvariant` : in every reachable state the pending bytes that are not handed over
  yet continue what was handed over to the accepted messages.
-/

namespace XprcServer

open Lib

/-- `SEND_BUFFER_SIZE` -/
def sendBufferSize : ℕ := 2 * 1024 * 1024

/-- `SEND_CHUNK_SIZE` -/
def sendChunkSize : ℕ := 512

/-- `NETWORK_SEND_COMPLETE_STRING` -/
def networkSendCompleteString : ℤ := -34768

/-- The fields of `network_connection_t` that concern sending. -/
structure NetworkConnection where
  shutdown : Bool
  hasSendMutex : Bool
  /-- A call returned without releasing the send mutex. -/
  sendMutexLeft : Bool
  sendRingbuffer : ℕ → UInt8
  sendReadPos : ℕ
  sendWritePos : ℕ

namespace NetworkConnection

/-- The bytes between the two positions. -/
def pendingBytes (c : NetworkConnection) : List UInt8 :=
  Ring.contents sendBufferSize c.sendRingbuffer c.sendReadPos c.sendWritePos

/-- Both positions are inside the buffer. -/
def InBuffer (c : NetworkConnection) : Prop :=
  c.sendReadPos < sendBufferSize ∧ c.sendWritePos < sendBufferSize

end NetworkConnection

/-! ### Sending to a connection -/

/-- `memcpy` of `src` to offset `dst` of a buffer. -/
def memcpy (cells : ℕ → UInt8) (dst : ℕ) (src : List UInt8) : ℕ → UInt8 :=
  fun i => if dst ≤ i ∧ i < dst + src.length then src.getD (i - dst) 0 else cells i

/-- `capacity_to_read_pos` -/
def capacityToReadPos (readPos writePos : ℕ) : ℤ :=
  if writePos < readPos then readPos - writePos - 1
  else if readPos = writePos then sendBufferSize - 1
  else sendBufferSize - writePos + readPos - 1

/-- The two copies of `send_to_network`: until the end of the buffer, then from its start. -/
def copyToRing (c : NetworkConnection) (content : List UInt8) (length : ℕ) :
    NetworkConnection :=
  let numCopyToEnd := min (sendBufferSize - c.sendWritePos) length
  let ring := memcpy c.sendRingbuffer c.sendWritePos (content.take numCopyToEnd)
  let writePos := c.sendWritePos + numCopyToEnd
  let writePos := if sendBufferSize ≤ writePos then 0 else writePos
  let numCopyAtStart := length - numCopyToEnd
  if 0 < numCopyAtStart then
    { c with
      sendRingbuffer := memcpy ring 0 ((content.drop numCopyToEnd).take numCopyAtStart)
      sendWritePos := writePos + numCopyAtStart }
  else { c with sendRingbuffer := ring, sendWritePos := writePos }

/-- The length that `send_to_network` works with. -/
def sendLength (content : List UInt8) (length : ℤ) : ℤ :=
  if length = networkSendCompleteString then strlen content else length

/-- `send_to_network`; `mtxLock` tells whether `mtx_lock` succeeds. -/
def sendToNetwork (mtxLock : Bool) (connection : Option NetworkConnection)
    (content : Option (List UInt8)) (length : ℤ) : ErrorCode × Option NetworkConnection :=
  match connection, content with
  | some c, some content =>
    if c.shutdown || !c.hasSendMutex then (.networkShutdown, some c)
    else if !mtxLock then (.unspecific, some c)
    else if sendLength content length < 0 then
      -- this exit does not unlock the mutex
      (.unspecific, some { c with sendMutexLeft := true })
    else if capacityToReadPos c.sendReadPos c.sendWritePos < sendLength content length then
      (.networkCapacity, some c)
    else (.none, some (copyToRing c content (sendLength content length).toNat))
  | connection, _ => (.unspecific, connection)

section

variable {c : NetworkConnection} {content : List UInt8}

theorem memcpy_of_lt {cells : ℕ → UInt8} {dst i : ℕ} {src : List UInt8} (h : i < src.length) :
    memcpy cells dst src (dst + i) = src[i] := by
  have h' : dst ≤ dst + i ∧ dst + i < dst + src.length := by omega
  simp only [memcpy, h', and_self, ↓reduceIte, Nat.add_sub_cancel_left]
  simp [List.getD_eq_getElem?_getD, List.getElem?_eq_getElem h]

theorem memcpy_of_outside {cells : ℕ → UInt8} {dst i : ℕ} {src : List UInt8}
    (h : i < dst ∨ dst + src.length ≤ i) : memcpy cells dst src i = cells i := by
  have h' : ¬ (dst ≤ i ∧ i < dst + src.length) := by omega
  simp only [memcpy, h', ↓reduceIte]

/-- The free capacity is what remains of `SEND_BUFFER_SIZE - 1` behind the pending bytes. -/
theorem capacityToReadPos_eq (h : c.InBuffer) :
    capacityToReadPos c.sendReadPos c.sendWritePos =
      (sendBufferSize - 1 - c.pendingBytes.length : ℤ) := by
  obtain ⟨hr, hw⟩ := h
  simp only [NetworkConnection.pendingBytes, Ring.length_contents]
  unfold capacityToReadPos Ring.pending
  split_ifs <;> omega

theorem copyToRing_sendRingbuffer (length : ℕ) :
    (copyToRing c content length).sendRingbuffer =
      let numCopyToEnd := min (sendBufferSize - c.sendWritePos) length
      let ring := memcpy c.sendRingbuffer c.sendWritePos (content.take numCopyToEnd)
      if 0 < length - numCopyToEnd then
        memcpy ring 0 ((content.drop numCopyToEnd).take (length - numCopyToEnd))
      else ring := by
  unfold copyToRing
  dsimp only
  split_ifs <;> rfl

/-- Cells that neither copy reaches. -/
theorem copyToRing_old {length p : ℕ} (hlen : length ≤ content.length)
    (h₁ : p < c.sendWritePos ∨ c.sendWritePos + min (sendBufferSize - c.sendWritePos) length ≤ p)
    (h₂ : length - min (sendBufferSize - c.sendWritePos) length ≤ p) :
    (copyToRing c content length).sendRingbuffer p = c.sendRingbuffer p := by
  rw [copyToRing_sendRingbuffer]
  dsimp only
  split_ifs
  · rw [memcpy_of_outside (by simp; omega), memcpy_of_outside (by simp; omega)]
  · rw [memcpy_of_outside (by simp; omega)]

/-- Byte `j` of the message is stored `j` cells behind the write position. -/
theorem copyToRing_new {length j : ℕ} (hw : c.sendWritePos < sendBufferSize)
    (hlen : length ≤ content.length) (hfit : length < sendBufferSize) (hj : j < length) :
    (copyToRing c content length).sendRingbuffer (Ring.index sendBufferSize c.sendWritePos j) =
      content[j] := by
  rw [copyToRing_sendRingbuffer]
  unfold Ring.index
  dsimp only
  split_ifs with hwrap hend hend
  · -- before the end of the buffer: the second copy ends in front of the write position
    rw [memcpy_of_outside (by simp; omega), memcpy_of_lt (by simp; omega)]
    simp
  · have hpos : c.sendWritePos + j - sendBufferSize =
        0 + (j - min (sendBufferSize - c.sendWritePos) length) := by omega
    have hj' : min (sendBufferSize - c.sendWritePos) length +
        (j - min (sendBufferSize - c.sendWritePos) length) = j := by omega
    rw [hpos, memcpy_of_lt (by simp; omega)]
    simp only [List.getElem_take, List.getElem_drop, hj']
  · rw [memcpy_of_lt (by simp; omega)]
    simp
  · omega

theorem copyToRing_pos (content : List UInt8) (h : c.InBuffer) {length : ℕ}
    (hfit : c.pendingBytes.length + length < sendBufferSize) :
    (copyToRing c content length).sendReadPos = c.sendReadPos ∧
      (copyToRing c content length).sendWritePos =
        Ring.index sendBufferSize c.sendReadPos (c.pendingBytes.length + length) := by
  obtain ⟨hr, hw⟩ := h
  simp only [NetworkConnection.pendingBytes, Ring.length_contents] at hfit ⊢
  unfold Ring.pending at hfit ⊢
  unfold copyToRing Ring.index
  constructor
  · dsimp only; split_ifs <;> rfl
  · dsimp only
    split_ifs at hfit ⊢ <;> dsimp only <;> omega

theorem copyToRing_inBuffer (h : c.InBuffer) {length : ℕ}
    (hfit : c.pendingBytes.length + length < sendBufferSize) :
    (copyToRing c content length).InBuffer := by
  obtain ⟨hread, hwrite⟩ := copyToRing_pos content h hfit
  refine ⟨hread ▸ h.1, ?_⟩
  rw [hwrite]
  exact Ring.index_lt h.1 hfit

/-- A message that fits is appended to the pending bytes. -/
theorem pendingBytes_copyToRing (h : c.InBuffer) {length : ℕ} (hlen : length ≤ content.length)
    (hfit : c.pendingBytes.length + length < sendBufferSize) :
    (copyToRing c content length).pendingBytes = c.pendingBytes ++ content.take length := by
  obtain ⟨hread, hwrite⟩ := copyToRing_pos content h hfit
  obtain ⟨hr, hw⟩ := h
  have htake : (content.take length).length = length := by simp [hlen]
  unfold NetworkConnection.pendingBytes at hfit hwrite ⊢
  simp only [Ring.length_contents] at hfit hwrite
  rw [hread]
  refine Ring.contents_append hr (by rw [hwrite, htake]) (by rw [htake]; exact hfit) ?_ ?_
  · -- the copies start at the write position and end in front of the read position
    intro i hi
    apply copyToRing_old hlen
    all_goals
      unfold Ring.pending at hi hfit
      unfold Ring.index
      split_ifs at hi hfit ⊢ <;> omega
  · intro j hj
    rw [htake] at hj
    have hidx : Ring.index sendBufferSize c.sendReadPos
        (Ring.pending sendBufferSize c.sendReadPos c.sendWritePos + j) =
        Ring.index sendBufferSize c.sendWritePos j := by
      rw [Nat.add_comm, ← Ring.index_index hr (by omega), Ring.index_pending hr hw]
    rw [hidx, copyToRing_new hw hlen (by omega) hj]
    simp

/-- **One call of `send_to_network`.**  On an open connection it is refused for lack of capacity
exactly if the message is longer than the free part of the buffer, and then changes nothing;
otherwise the message is appended to the pending bytes. -/
theorem sendToNetwork_spec (content : List UInt8) (length : ℤ) (h : c.InBuffer)
    (hopen : c.shutdown = false)
    (hmutex : c.hasSendMutex = true) (hpos : 0 ≤ sendLength content length)
    (hlen : sendLength content length ≤ content.length) :
    (sendBufferSize - 1 - c.pendingBytes.length < sendLength content length ∧
      sendToNetwork true (some c) (some content) length = (.networkCapacity, some c)) ∨
    (sendLength content length ≤ sendBufferSize - 1 - c.pendingBytes.length ∧
      ∃ c', sendToNetwork true (some c) (some content) length = (.none, some c') ∧
        c'.InBuffer ∧ c'.shutdown = false ∧ c'.hasSendMutex = true ∧
        c'.sendReadPos = c.sendReadPos ∧
        c'.pendingBytes = c.pendingBytes ++ content.take (sendLength content length).toNat) := by
  have hcap := capacityToReadPos_eq h
  have hneg : ¬ sendLength content length < 0 := by omega
  simp only [sendToNetwork, hopen, hmutex, Bool.not_true, Bool.or_self, Bool.false_eq_true,
    ↓reduceIte, hneg, hcap]
  by_cases hfull : (sendBufferSize - 1 - c.pendingBytes.length : ℤ) < sendLength content length
  · exact .inl ⟨hfull, by simp [hfull]⟩
  · have hfit : c.pendingBytes.length + (sendLength content length).toNat < sendBufferSize := by
      omega
    have hlen' : (sendLength content length).toNat ≤ content.length := by omega
    refine .inr ⟨by omega, _, by simp only [hfull, ↓reduceIte], copyToRing_inBuffer h hfit, ?_, ?_,
      (copyToRing_pos content h hfit).1, pendingBytes_copyToRing h hlen' hfit⟩
    · rw [← hopen]; unfold copyToRing; dsimp only; split_ifs <;> rfl
    · rw [← hmutex]; unfold copyToRing; dsimp only; split_ifs <;> rfl

end

/-! ### The send thread -/

/-- Where the send thread is. -/
inductive SendThread where
  /-- Before the critical section that determines the next chunk. -/
  | idle
  /-- In `send` with a chunk, of which some bytes were handed over. -/
  | sending (chunk handed : ℕ)
  /-- `send` has returned this number of bytes. -/
  | sent (count : ℕ)
  /-- The thread has left its loop, with this many bytes handed over but not accounted for. -/
  | stopped (count : ℕ)

namespace SendThread

/-- Bytes behind the read position that were handed over already. -/
def inFlight : SendThread → ℕ
  | idle => 0
  | sending _ handed => handed
  | sent count => count
  | stopped count => count

/-- Bytes behind the read position that the thread may still hand over or account for. -/
def claimed : SendThread → ℕ
  | idle => 0
  | sending chunk _ => chunk
  | sent count => count
  | stopped count => count

end SendThread

/-- A connection, its send thread, and what has happened so far. -/
structure SendState where
  connection : NetworkConnection
  thread : SendThread
  /-- The accepted messages, in acceptance order. -/
  accepted : List (List UInt8)
  /-- The bytes handed to the socket. -/
  handed : List UInt8

namespace SendState

/-- The bytes in the buffer that were not handed to the socket yet.  Bytes of a `send` call stay
between the positions until the read position is advanced. -/
def unsent (s : SendState) : List UInt8 := s.connection.pendingBytes.drop s.thread.inFlight

/-- A connection as set up by `run_server_thread`. -/
def initial : SendState where
  connection := ⟨false, true, false, fun _ => 0, 0, 0⟩
  thread := .idle
  accepted := []
  handed := []

end SendState

/-- The pending bytes up to the write position or the end of the buffer. -/
def pendingToEnd (c : NetworkConnection) : ℕ :=
  if c.sendReadPos < c.sendWritePos then c.sendWritePos - c.sendReadPos
  else sendBufferSize - c.sendReadPos

/-- The read position after `sent` bytes, wrapped if needed. -/
def advanceReadPos (c : NetworkConnection) (sent : ℕ) : NetworkConnection :=
  { c with sendReadPos :=
      if sendBufferSize ≤ c.sendReadPos + sent then 0 else c.sendReadPos + sent }

/-- The steps of the callers and of the send thread. -/
inductive SendAct where
  | call (content : List UInt8) (length : ℤ) (result : ErrorCode)
  | takeChunk
  | handOver
  | sendReturns
  | advance
  | stop
  | shutdown

/-- One step.  A caller passes a length that its content has. -/
inductive SendStep : SendState → SendAct → SendState → Prop
  | call {s : SendState} (content : List UInt8) (length : ℤ) {result : ErrorCode}
      {c : NetworkConnection} (mtxLock : Bool) (hpos : 0 ≤ sendLength content length)
      (hlen : sendLength content length ≤ content.length)
      (hfree : s.connection.sendMutexLeft = false)
      (h : sendToNetwork mtxLock (some s.connection) (some content) length = (result, some c)) :
      SendStep s (.call content length result)
        { s with
          connection := c
          accepted := if result = .none
            then s.accepted ++ [content.take (sendLength content length).toNat]
            else s.accepted }
  | takeChunk {s : SendState} (h : s.thread = .idle)
      (hopen : s.connection.shutdown = false)
      (hpending : s.connection.sendReadPos ≠ s.connection.sendWritePos) :
      SendStep s .takeChunk
        { s with thread := .sending (min (pendingToEnd s.connection) sendChunkSize) 0 }
  | handOver {s : SendState} {chunk k : ℕ} (h : s.thread = .sending chunk k) (hk : k < chunk) :
      SendStep s .handOver
        { s with
          thread := .sending chunk (k + 1)
          handed := s.handed ++
            [s.connection.sendRingbuffer (s.connection.sendReadPos + k)] }
  | sendReturns {s : SendState} {chunk k : ℕ} (h : s.thread = .sending chunk k) (hk : 1 ≤ k) :
      SendStep s .sendReturns { s with thread := .sent k }
  | advance {s : SendState} {k : ℕ} (h : s.thread = .sent k) :
      SendStep s .advance
        { s with connection := advanceReadPos s.connection k, thread := .idle }
  /-- Shutdown, a failed wait, or the mutex cannot be locked. -/
  | stopIdle {s : SendState} (h : s.thread = .idle) :
      SendStep s .stop { s with thread := .stopped 0 }
  /-- `send` has failed. -/
  | stopSending {s : SendState} {chunk : ℕ} (h : s.thread = .sending chunk 0) :
      SendStep s .stop { s with thread := .stopped 0 }
  /-- The mutex cannot be locked again after `send`. -/
  | stopSent {s : SendState} {k : ℕ} (h : s.thread = .sent k) :
      SendStep s .stop { s with thread := .stopped k }
  | shutdown {s : SendState} :
      SendStep s .shutdown { s with connection := { s.connection with shutdown := true } }

/-- Callers and the send thread of one connection. -/
def sendSystem : System SendState SendAct where
  init s := s = .initial
  next := SendStep

/-- What holds between the steps. -/
structure SendInvariant (s : SendState) : Prop where
  inBuffer : s.connection.InBuffer
  hasMutex : s.connection.hasSendMutex = true
  /-- What the send thread works on is pending and does not wrap. -/
  claimed_le : s.thread.claimed ≤ s.connection.pendingBytes.length
  claimed_end : s.connection.sendReadPos + s.thread.claimed ≤ sendBufferSize
  inFlight_le : s.thread.inFlight ≤ s.thread.claimed
  /-- Nothing is lost, duplicated or reordered. -/
  stream : s.handed ++ s.unsent = s.accepted.flatten

theorem sendInvariant_initial : SendInvariant .initial where
  inBuffer := ⟨by decide, by decide⟩
  hasMutex := rfl
  claimed_le := by simp [SendState.initial, SendThread.claimed]
  claimed_end := by simp [SendState.initial, SendThread.claimed]
  inFlight_le := by simp [SendState.initial, SendThread.claimed, SendThread.inFlight]
  stream := by
    simp [SendState.initial, SendState.unsent, NetworkConnection.pendingBytes, Ring.contents,
      Ring.pending]

section

variable {s : SendState}

/-- A call changes the connection only if it is accepted. -/
theorem sendToNetwork_eq_of_ne_none {mtxLock : Bool} {content : List UInt8} {length : ℤ}
    {result : ErrorCode} {c c' : NetworkConnection} (hpos : 0 ≤ sendLength content length)
    (h : sendToNetwork mtxLock (some c) (some content) length = (result, some c'))
    (hr : result ≠ .none) : c' = c := by
  simp only [sendToNetwork] at h
  split_ifs at h <;> simp only [Prod.mk.injEq, Option.some.injEq] at h
  · exact h.2.symm
  · exact h.2.symm
  · omega
  · exact h.2.symm
  · exact absurd h.1.symm hr

/-- An accepted call was made on an open connection, under the mutex. -/
theorem open_of_accepted {mtxLock : Bool} {content : List UInt8} {length : ℤ}
    {c c' : NetworkConnection}
    (h : sendToNetwork mtxLock (some c) (some content) length = (.none, some c')) :
    c.shutdown = false ∧ c.hasSendMutex = true ∧ mtxLock = true := by
  simp only [sendToNetwork] at h
  split_ifs at h with h1 h2 <;> simp only [Prod.mk.injEq, reduceCtorEq, false_and] at h
  simp only [Bool.or_eq_true, Bool.not_eq_eq_eq_not, Bool.not_true, not_or, Bool.not_eq_true,
    Bool.not_eq_false] at h1 h2
  exact ⟨h1.1, h1.2, h2⟩

theorem SendInvariant.call (hI : SendInvariant s) {mtxLock : Bool} {content : List UInt8}
    {length : ℤ} {result : ErrorCode} {c : NetworkConnection}
    (hpos : 0 ≤ sendLength content length) (hlen : sendLength content length ≤ content.length)
    (h : sendToNetwork mtxLock (some s.connection) (some content) length = (result, some c)) :
    SendInvariant
      { s with
        connection := c
        accepted := if result = .none
          then s.accepted ++ [content.take (sendLength content length).toNat]
          else s.accepted } := by
  by_cases hr : result = .none
  · subst hr
    obtain ⟨hopen, hmutex, rfl⟩ := open_of_accepted h
    rcases sendToNetwork_spec _ _ hI.inBuffer hopen hmutex hpos hlen with
      ⟨-, hcap⟩ | ⟨-, c', hc', hin, -, hmutex', hread, hbytes⟩
    · rw [h] at hcap; cases hcap
    · rw [h] at hc'
      cases hc'
      have hle : s.thread.inFlight ≤ s.connection.pendingBytes.length :=
        hI.inFlight_le.trans hI.claimed_le
      refine ⟨hin, hmutex', ?_, ?_, hI.inFlight_le, ?_⟩
      · rw [hbytes, List.length_append]
        exact hI.claimed_le.trans (Nat.le_add_right _ _)
      · rw [hread]; exact hI.claimed_end
      · have hstream := hI.stream
        simp only [SendState.unsent] at hstream
        simp only [SendState.unsent, hbytes, ↓reduceIte, List.flatten_append, List.flatten_cons,
          List.flatten_nil, List.append_nil]
        rw [List.drop_append_of_le_length hle, ← List.append_assoc, hstream]
  · have hc := sendToNetwork_eq_of_ne_none hpos h hr
    simp only [hr, hc, ↓reduceIte]
    exact hI

theorem SendInvariant.takeChunk (hI : SendInvariant s) (h : s.thread = .idle)
    (hpending : s.connection.sendReadPos ≠ s.connection.sendWritePos) :
    SendInvariant
      { s with thread := .sending (min (pendingToEnd s.connection) sendChunkSize) 0 } := by
  obtain ⟨hr, hw⟩ := hI.inBuffer
  have hstream := hI.stream
  simp only [SendState.unsent, h, SendThread.inFlight] at hstream
  have hend : pendingToEnd s.connection ≤ s.connection.pendingBytes.length ∧
      s.connection.sendReadPos + pendingToEnd s.connection ≤ sendBufferSize := by
    simp only [NetworkConnection.pendingBytes, Ring.length_contents]
    unfold pendingToEnd Ring.pending
    split_ifs <;> omega
  refine ⟨hI.inBuffer, hI.hasMutex, ?_, ?_, Nat.zero_le _, hstream⟩
  · exact (Nat.min_le_left _ _).trans hend.1
  · exact (Nat.add_le_add_left (Nat.min_le_left _ _) _).trans hend.2

/-- The byte handed over is the first one that was not handed over yet, whatever was written to
the buffer since the chunk was determined. -/
theorem SendInvariant.handOver (hI : SendInvariant s) {chunk k : ℕ}
    (h : s.thread = .sending chunk k) (hk : k < chunk) :
    SendInvariant
      { s with
        thread := .sending chunk (k + 1)
        handed := s.handed ++
          [s.connection.sendRingbuffer (s.connection.sendReadPos + k)] } := by
  obtain ⟨hin, hmutex, hle, hend, hfl, hstream⟩ := hI
  simp only [h, SendThread.claimed, SendThread.inFlight, SendState.unsent] at hle hend hfl hstream
  have hlt : k < s.connection.pendingBytes.length := hk.trans_le hle
  have hcell : s.connection.pendingBytes[k] =
      s.connection.sendRingbuffer (s.connection.sendReadPos + k) := by
    have hidx : Ring.index sendBufferSize s.connection.sendReadPos k =
        s.connection.sendReadPos + k := by
      unfold Ring.index
      split_ifs <;> omega
    exact (Ring.getElem_contents hlt).trans (by rw [hidx])
  refine ⟨hin, hmutex, hle, hend, hk, ?_⟩
  simp only [SendState.unsent, SendThread.inFlight]
  rw [← hcell, List.append_assoc, List.singleton_append, ← List.drop_eq_getElem_cons hlt]
  exact hstream

theorem SendInvariant.sendReturns (hI : SendInvariant s) {chunk k : ℕ}
    (h : s.thread = .sending chunk k) : SendInvariant { s with thread := .sent k } := by
  obtain ⟨hin, hmutex, hle, hend, hfl, hstream⟩ := hI
  simp only [h, SendThread.claimed, SendThread.inFlight, SendState.unsent] at hle hend hfl hstream
  refine ⟨hin, hmutex, ?_, ?_, le_rfl, hstream⟩
  · exact hfl.trans hle
  · simp only [SendThread.claimed]; omega

theorem SendInvariant.advance (hI : SendInvariant s) {k : ℕ} (h : s.thread = .sent k) :
    SendInvariant { s with connection := advanceReadPos s.connection k, thread := .idle } := by
  obtain ⟨⟨hr, hw⟩, hmutex, hle, hend, hfl, hstream⟩ := hI
  simp only [h, SendThread.claimed, SendThread.inFlight, SendState.unsent] at hle hend hfl hstream
  have hpos : (advanceReadPos s.connection k).sendReadPos =
      Ring.index sendBufferSize s.connection.sendReadPos k := by
    unfold advanceReadPos Ring.index
    dsimp only
    split_ifs <;> omega
  have hk : k ≤ Ring.pending sendBufferSize s.connection.sendReadPos
      s.connection.sendWritePos := by
    simpa [NetworkConnection.pendingBytes] using hle
  have hbytes : (advanceReadPos s.connection k).pendingBytes =
      s.connection.pendingBytes.drop k := by
    unfold NetworkConnection.pendingBytes
    rw [hpos]
    exact Ring.contents_drop hr hw hk
  have hlt : (advanceReadPos s.connection k).sendReadPos < sendBufferSize := by
    rw [hpos]
    exact Ring.index_lt hr (hk.trans_lt (Ring.pending_lt hr hw))
  refine ⟨⟨hlt, hw⟩, hmutex, Nat.zero_le _, hlt.le, le_rfl, ?_⟩
  simp only [SendState.unsent, SendThread.inFlight, hbytes, List.drop_zero]
  exact hstream

theorem SendInvariant.stop (hI : SendInvariant s) {k : ℕ} (h : s.thread.inFlight = k) :
    SendInvariant { s with thread := .stopped k } := by
  obtain ⟨hin, hmutex, hle, hend, hfl, hstream⟩ := hI
  subst h
  refine ⟨hin, hmutex, hfl.trans hle, ?_, le_rfl, hstream⟩
  simp only [SendThread.claimed]
  omega

theorem SendInvariant.step {a : SendAct} {s' : SendState} (hI : SendInvariant s)
    (h : SendStep s a s') : SendInvariant s' := by
  cases h with
  | call content length mtxLock hpos hlen _ h => exact hI.call hpos hlen h
  | takeChunk h _ hpending => exact hI.takeChunk h hpending
  | handOver h hk => exact hI.handOver h hk
  | sendReturns h _ => exact hI.sendReturns h
  | advance h => exact hI.advance h
  | stopIdle h => exact hI.stop (by rw [h]; rfl)
  | stopSending h => exact hI.stop (by rw [h]; rfl)
  | stopSent h => exact hI.stop (by rw [h]; rfl)
  | shutdown => exact ⟨hI.inBuffer, hI.hasMutex, hI.claimed_le, hI.claimed_end, hI.inFlight_le,
      hI.stream⟩

theorem reachable_sendInvariant (h : sendSystem.Reachable s) : SendInvariant s :=
  h.invariant (fun _ hs => hs ▸ sendInvariant_initial) fun _ _ _ _ hI hn => hI.step hn

/-- **The stream a client receives is the accepted messages, in order.**  In every interleaving
of calls and send thread, the bytes handed to the socket followed by the bytes of the buffer that
were not handed over are the accepted messages in acceptance order; both positions are inside the
buffer; and on an open connection a call is refused for lack of capacity exactly if its length
exceeds `SEND_BUFFER_SIZE - 1` less the bytes between the positions, and then leaves the
connection as it was. -/
theorem send_stream_of_reachable (h : sendSystem.Reachable s) :
    s.handed ++ s.unsent = s.accepted.flatten ∧
      s.connection.sendReadPos < sendBufferSize ∧ s.connection.sendWritePos < sendBufferSize ∧
      ∀ (content : List UInt8) (length : ℤ), s.connection.shutdown = false → 0 ≤ length →
        length ≤ content.length →
        let call := sendToNetwork true (some s.connection) (some content) length
        (call.1 = .networkCapacity ↔
          (sendBufferSize - 1 - s.connection.pendingBytes.length : ℤ) < length) ∧
        (call.1 = .networkCapacity → call.2 = some s.connection) := by
  have hI := reachable_sendInvariant h
  refine ⟨hI.stream, hI.inBuffer.1, hI.inBuffer.2, ?_⟩
  intro content length hopen hpos hlen
  have hsend : sendLength content length = length := by
    have : length ≠ networkSendCompleteString := by unfold networkSendCompleteString; omega
    simp [sendLength, this]
  have hspec := sendToNetwork_spec content length hI.inBuffer hopen
    hI.hasMutex (by rw [hsend]; exact hpos) (by rw [hsend]; exact hlen)
  rw [hsend] at hspec
  rcases hspec with ⟨hfull, hcall⟩ | ⟨hroom, c', hcall, -⟩
  · simp [hcall, hfull]
  · simp only [hcall, reduceCtorEq, false_iff, not_lt, false_implies, and_true]
    exact hroom

end

/-- The message `hi` accepted and its first byte handed over. -/
theorem send_stream_of_reachable_hi :
    ∃ s, sendSystem.Reachable s ∧ s.handed = [104] ∧ s.accepted = [[104, 105]] ∧
      s.handed ++ s.unsent = [104, 105] := by
  have h₁ : sendSystem.Reachable _ := .step _ (.start rfl) (SendStep.call [104, 105] 2
    true (by decide) (by decide) rfl rfl)
  have h₂ : sendSystem.Reachable _ := .step _ h₁ (SendStep.takeChunk rfl rfl (by decide))
  have h₃ : sendSystem.Reachable _ := .step _ h₂ (SendStep.handOver rfl (by decide))
  exact ⟨_, h₃, by decide, by decide, (send_stream_of_reachable h₃).1⟩

end XprcServer
