import XprcServer.Session.Messages

/-!
# The dialogue on a channel

The lines that the message functions and `destroy_session_channel` put on the wire for one channel
form a dialogue of the protocol (`ValidDialogue`), whatever the order of the calls and whichever
of the transmissions fail: `channel_dialogue_valid`.

A line is what one call hands to `send_to_network`, with the line feed at its end.  Commands send
messages without line feeds; a message with one would be several lines to the client.

A failed transmission advances the state of the channel all the same.  A channel can thus be
confirmed without the client having seen a line; `DialogueState` tracks whether this is so.  It
never lasts: the failed call sends an error right away, unless the session has been flagged for
destruction meanwhile, and then no later call gets to send anything.
-/

namespace XprcServer

open Lib

/-! ### Lines -/

/-- The line says that the channel stays open (`+`). -/
def Continues (line : List UInt8) : Prop := line.head? = some 43

/-- The line closes the channel (`-`). -/
def Closes (line : List UInt8) : Prop := line.head? = some 45

/-- The continuation indicator is followed by `statePrefix`. -/
def HasStatePrefix (statePrefix : String) (line : List UInt8) : Prop :=
  (line.drop 1).take 4 = bytes statePrefix

/-- The first line acknowledges the request or reports an error. -/
def Opens (line : List UInt8) : Prop := HasStatePrefix "ACK " line ∨ HasStatePrefix "ERR " line

/-- What a client may see on one channel. -/
structure ValidDialogue (lines : List (List UInt8)) : Prop where
  first : ∀ line, lines.head? = some line → Opens line
  plus : ∀ line ∈ lines.dropLast, Continues line
  minus : ∀ i line, lines[i]? = some line → Closes line → i + 1 = lines.length
  err : ∀ line ∈ lines, HasStatePrefix "ERR " line → Closes line

/-- The lines seen on a channel that is still open. -/
structure OpenDialogue (lines : List (List UInt8)) : Prop where
  first : ∀ line, lines.head? = some line → Opens line
  plus : ∀ line ∈ lines, Continues line
  err : ∀ line ∈ lines, ¬ HasStatePrefix "ERR " line

theorem Continues.not_closes {line : List UInt8} (h : Continues line) : ¬ Closes line := by
  unfold Continues Closes at *
  rw [h]
  simp

namespace OpenDialogue

variable {lines : List (List UInt8)} {line : List UInt8}

theorem nil : OpenDialogue [] := ⟨by simp, by simp, by simp⟩

theorem valid (h : OpenDialogue lines) : ValidDialogue lines where
  first := h.first
  plus line hl := h.plus line (List.dropLast_subset _ hl)
  minus _ line hl hc := absurd hc (h.plus line (List.mem_of_getElem? hl)).not_closes
  err line hl he := absurd he (h.err line hl)

theorem head_append (h : OpenDialogue lines) (hopen : lines = [] → Opens line) :
    ∀ l, (lines ++ [line]).head? = some l → Opens l := by
  intro l hl
  cases lines with
  | nil =>
    simp only [List.nil_append, List.head?_cons, Option.some.injEq] at hl
    exact hl ▸ hopen rfl
  | cons first rest => exact h.first l (by simpa using hl)

theorem continued (h : OpenDialogue lines) (hplus : Continues line)
    (herr : ¬ HasStatePrefix "ERR " line) (hopen : lines = [] → Opens line) :
    OpenDialogue (lines ++ [line]) where
  first := h.head_append hopen
  plus l hl := by
    rcases List.mem_append.1 hl with hl | hl
    · exact h.plus l hl
    · rw [List.mem_singleton.1 hl]; exact hplus
  err l hl := by
    rcases List.mem_append.1 hl with hl | hl
    · exact h.err l hl
    · rw [List.mem_singleton.1 hl]; exact herr

theorem closed (h : OpenDialogue lines) (hminus : Closes line) (hopen : lines = [] → Opens line) :
    ValidDialogue (lines ++ [line]) where
  first := h.head_append hopen
  plus l hl := h.plus l (by simpa using hl)
  minus i l hl hc := by
    by_cases hi : i < lines.length
    · rw [List.getElem?_append_left hi] at hl
      exact absurd hc (h.plus l (List.mem_of_getElem? hl)).not_closes
    · have := (List.getElem?_eq_some_iff.1 hl).1
      simp only [List.length_append, List.length_singleton] at this ⊢
      omega
  err l hl he := by
    rcases List.mem_append.1 hl with hl | hl
    · exact absurd he (h.err l hl)
    · rw [List.mem_singleton.1 hl]; exact hminus

end OpenDialogue

/-! ### What `send_channel` writes -/

section

variable (channel : Channel) (action : ChannelAction) (timestamp : ℤ)
  (message : Option (List UInt8))

theorem channelLine_continues (h : action.channelContinues = true) :
    Continues (channelLine channel action timestamp message) := by
  simp [Continues, channelLine, h]

theorem channelLine_closes (h : action.channelContinues = false) :
    Closes (channelLine channel action timestamp message) := by
  simp [Closes, channelLine, h]

/-- No character of a channel name is a space. -/
theorem channelIdSegmentToChar_ne_space (segment : UInt8) :
    channelIdSegmentToChar segment ≠ 32 := by
  unfold channelIdSegmentToChar
  split_ifs with h1 h2 h3
  all_goals
    intro h
    simp only [UInt8.lt_iff_toNat_lt, ← UInt8.toNat_inj, UInt8.toNat_add, UInt8.toNat_sub,
      UInt8.reduceToNat] at *
    omega

/-- The text of a message; NULL stands for the empty text. -/
def messageText (message : Option (List UInt8)) : List UInt8 := (message.map cString).getD []

theorem channelLine_statePrefix (h : needsStatePrefix channel action (messageText message) = true) :
    ((channelLine channel action timestamp message).drop 1).take 4 =
      bytes (if action = .err then "ERR " else "ACK ") := by
  have hlen : (bytes (if action = .err then "ERR " else "ACK ")).length = 4 := by
    split_ifs <;> rfl
  simp only [messageText] at h
  simp [channelLine, h, hlen]

theorem channelLine_name (h : needsStatePrefix channel action (messageText message) = false) :
    ((channelLine channel action timestamp message).drop 1).take 4 =
      channelIdToString channel.id := by
  simp only [messageText] at h
  simp [channelLine, h, channelIdToString]

theorem channelIdToString_ne_statePrefix (id : ChannelId) :
    channelIdToString id ≠ bytes "ERR " := by
  intro h
  have hlast := congrArg (fun l : List UInt8 => l[3]?) h
  simp only [channelIdToString, List.map_cons, List.getElem?_cons_succ,
    List.getElem?_cons_zero] at hlast
  have hspace : (bytes "ERR ")[3]? = some 32 := by decide
  exact channelIdSegmentToChar_ne_space _ (Option.some.inj (hlast.trans hspace))

theorem channelLine_err_iff :
    HasStatePrefix "ERR " (channelLine channel action timestamp message) ↔ action = .err := by
  unfold HasStatePrefix
  cases hp : needsStatePrefix channel action (messageText message) with
  | true =>
    rw [channelLine_statePrefix channel action timestamp message hp]
    by_cases ha : action = .err
    · simp [ha]
    · simp only [ha, ↓reduceIte, iff_false]
      decide
  | false =>
    rw [channelLine_name channel action timestamp message hp]
    have ha : action ≠ .err := by
      rintro rfl
      simp [needsStatePrefix] at hp
    exact iff_of_false (channelIdToString_ne_statePrefix _) ha

theorem channelLine_opens (h : needsStatePrefix channel action (messageText message) = true) :
    Opens (channelLine channel action timestamp message) := by
  unfold Opens HasStatePrefix
  rw [channelLine_statePrefix channel action timestamp message h]
  split_ifs
  · exact .inr rfl
  · exact .inl rfl

end

/-! ### The destructor of a channel -/

namespace Session

variable {μ : Type}

/-- The first part of `destroy_session_channel`: the command is terminated unless that has happened
already. -/
def terminateChannel (terminate : Command → Option ℕ → M μ ErrorCode) (id : ChannelId)
    (channel : Channel) : M μ Unit :=
  if channel.destructionRequested then pure ()
  else do
    match channel.command with
    | none => pure ()
    | some command => do
      let _ ← terminate command channel.commandRef
      pure ()
    modifyChannel id fun channel => { channel with destructionRequested := true }

/-- The second part: the client is told unless the whole session is being destroyed. -/
def closeChannel (id : ChannelId) (channel : Channel) : M μ Unit :=
  if channel.state = .closed then pure ()
  else do
    if ← destructionPending .session then pure ()
    else do
      let _ ← sendChannel id channel .close currentTimeReference none
      pure ()
    modifyChannel id fun channel => { channel with state := .closed }

/-- The last part: a command that cannot be destroyed keeps its channel. -/
def freeChannel (destroy : Command → Option ℕ → M μ ErrorCode) (id : ChannelId)
    (channel : Channel) : M μ Unit := do
  let err ←
    match channel.command with
    | none => pure .none
    | some command => destroy command channel.commandRef
  if err ≠ .none then pure ()
  else Logged.update fun w => { w with channels := w.channels.erase id }

/-- `destroy_session_channel` on the channel registered for `id`; `terminate` and `destroy` are
what the functions of its command do.  They may send messages, so that the channel is read anew
after the former was called. -/
def destroySessionChannel (terminate destroy : Command → Option ℕ → M μ ErrorCode)
    (id : ChannelId) : M μ Unit := do
  match ← getChannel id with
  | none => pure ()
  | some channel => do
    terminateChannel terminate id channel
    match ← getChannel id with
    | none => pure ()
    | some channel => do
      closeChannel id channel
      freeChannel destroy id channel

end Session

/-- A message a command sends on its channel. -/
structure ChannelMessage where
  call : ChannelCall
  timestamp : ℤ
  message : Option (List UInt8)

/-- What can happen to a channel: a message is sent, or the channel is destroyed.  In the latter
case the command of the channel sends messages while it is being terminated. -/
inductive ChannelEvent where
  | send (message : ChannelMessage)
  | destroy (messages : List ChannelMessage) (terminated destroyed : ErrorCode)

section

variable {μ : Type}

/-- Send a message on the channel. -/
def ChannelMessage.exec (message : ChannelMessage) (id : ChannelId) : M μ ErrorCode :=
  message.call.exec id message.timestamp message.message

/-- Send messages on the channel, one after the other. -/
def sendMessages (id : ChannelId) : List ChannelMessage → M μ Unit
  | [] => pure ()
  | message :: rest => do
    let _ ← message.exec id
    sendMessages id rest

/-- The functions called on the channel. -/
def ChannelEvent.exec (id : ChannelId) : ChannelEvent → M μ Unit
  | send message => do
    let _ ← message.exec id
    pure ()
  | destroy messages terminated destroyed =>
    Session.destroySessionChannel
      (fun _ _ => do
        sendMessages id messages
        pure terminated)
      (fun _ _ => pure destroyed) id

/-- Any number of calls. -/
def execEvents (id : ChannelId) : List ChannelEvent → M μ Unit
  | [] => pure ()
  | event :: rest => do
    event.exec id
    execEvents id rest

end

/-- The timestamp is to be looked up, or not negative. -/
def ChannelMessage.Timed (message : ChannelMessage) : Prop :=
  message.timestamp = currentTimeReference ∨ 0 ≤ message.timestamp

/-- All timestamps are to be looked up, or not negative. -/
def ChannelEvent.Timed : ChannelEvent → Prop
  | send message => message.Timed
  | destroy messages _ _ => ∀ message ∈ messages, message.Timed

/-- Allocations succeed, and the clock has not gone back behind the start of the session. -/
structure Environment.Resourceful (env : Environment) (referenceMillis : ℤ) : Prop where
  alloc : ∀ n, env.alloc n = true
  reference : 0 ≤ referenceMillis
  clock : ∀ n, ∃ now, env.clock n = some now ∧ referenceMillis ≤ millisOfTimespec now

/-! ### One message -/

section

open Session

variable {μ : Type} {w : World μ} {id : ChannelId} {channel : Channel} {action : ChannelAction}
  {timestamp : ℤ} {message : Option (List UInt8)}

theorem resolveTimestamp_run (hw : w.env.Resourceful w.referenceMillis)
    (ht : timestamp = currentTimeReference ∨ 0 ≤ timestamp) :
    ∃ n, w.tick ≤ n ∧ ((resolveTimestamp timestamp).run w).state = w.atTick n ∧
      (((resolveTimestamp timestamp).run w).val < 0 → w.env.pendingAt .session n = true) := by
  unfold resolveTimestamp
  by_cases hc : timestamp = currentTimeReference
  · simp only [hc, ↓reduceIte]
    by_cases hp : w.env.pendingAt .session w.tick = true
    · exact ⟨w.tick + 1, by omega, by simp [millisSinceReference, destructionPending, hp], fun _ =>
        Environment.pendingAt_mono (Nat.le_succ _) hp⟩
    · obtain ⟨now, hclock, hnow⟩ := hw.clock (w.tick + 1)
      have href := hw.reference
      have hrun : (millisSinceReference : M μ ℤ).run w =
          ⟨millisOfTimespec now - w.referenceMillis, w.atTick (w.tick + 2), []⟩ := by
        simp [millisSinceReference, destructionPending, hp, World.atTick, hclock,
          show ¬ w.referenceMillis < 0 by omega, show ¬ millisOfTimespec now < 0 by omega,
          show ¬ millisOfTimespec now < w.referenceMillis by omega]
      rw [hrun]
      refine ⟨w.tick + 2, by omega, rfl, fun hneg => ?_⟩
      change millisOfTimespec now - w.referenceMillis < 0 at hneg
      omega
  · have hrun : (if timestamp = currentTimeReference then millisSinceReference
        else pure timestamp : M μ ℤ).run w = ⟨timestamp, w, []⟩ := by simp [hc]
    rw [hrun]
    exact ⟨w.tick, Nat.le_refl _, rfl, fun hneg => absurd hneg (Int.not_lt.2 (ht.resolve_left hc))⟩

/-- What `send_channel` does: it refuses without a change, or advances the channel and puts the line
on the wire if it can be sent. -/
theorem sendChannel_run (id : ChannelId) (channel : Channel) (action : ChannelAction)
    (message : Option (List UInt8)) (hw : w.env.Resourceful w.referenceMillis)
    (ht : timestamp = currentTimeReference ∨ 0 ≤ timestamp) :
    ∃ n, w.tick ≤ n ∧
      ((((sendChannel id channel action timestamp message).run w).state = w.atTick n ∧
        ((sendChannel id channel action timestamp message).run w).val ≠ .none ∧
        (action.forbidden channel.state = true ∨ w.env.pendingAt .session n = true)) ∨
      (action.forbidden channel.state = false ∧ ∃ ts,
        ((sendChannel id channel action timestamp message).run w).state =
          { w.atTick n with
            channels := w.channels.modify id fun channel =>
              { channel with state := action.nextState }
            wire :=
              if ((sendChannel id channel action timestamp message).run w).val = .none then
                w.wire ++ [channelLine channel action ts message]
              else w.wire })) := by
  obtain ⟨n, hn, hstate, hval⟩ := resolveTimestamp_run hw ht
  by_cases hneg : ((resolveTimestamp timestamp).run w).val < 0
  · refine ⟨n, hn, .inl ?_⟩
    simp [sendChannel, hneg, hstate, hval hneg]
  · by_cases hf : action.forbidden channel.state = true
    · refine ⟨n, hn, .inl ?_⟩
      simp [sendChannel, hneg, hstate, hf]
    · refine ⟨n + 2, by omega,
        .inr ⟨by simpa using hf, ((resolveTimestamp timestamp).run w).val, ?_⟩⟩
      have halloc := hw.alloc n
      by_cases hsend : w.env.send (n + 1) = .none
      · simp [sendChannel, hneg, hstate, hf, Session.allocate, halloc, Session.sendToNetwork,
          modifyChannel, hsend, World.atTick]
      · simp [sendChannel, hneg, hstate, hf, Session.allocate, halloc, Session.sendToNetwork,
          modifyChannel, hsend, World.atTick]

end

/-! ### The state of the dialogue -/

/-- The lines seen so far fit the state of the channel (`none` once it is freed); `owed` is to
explain why the client of a confirmed channel has not seen any line yet. -/
def DialogueAt (owed : Prop) (lines : List (List UInt8)) : Option ChannelState → Prop
  | none => ValidDialogue lines
  | some .initial => lines = []
  | some .confirmed => OpenDialogue lines ∧ (lines = [] → owed)
  | some .closed => ValidDialogue lines

/-- The lines put on the wire since `start` fit the state of the channel `id`. -/
def DialogueState {μ : Type} (owed : Prop) (start : List (List UInt8)) (id : ChannelId)
    (w : World μ) : Prop :=
  w.env.Resourceful w.referenceMillis ∧ ∃ lines, w.wire = start ++ lines ∧
    DialogueAt owed lines ((w.channels.lookup id).map Channel.state)

/-- The invariant of all calls: a confirmed channel without a line is left behind only in a session
that is about to be destroyed. -/
def DialogueInvariant {μ : Type} (start : List (List UInt8)) (id : ChannelId)
    (w : World μ) : Prop :=
  DialogueState (w.env.pendingAt .session w.tick = true) start id w

section

open Session

variable {μ : Type} {w : World μ} {start : List (List UInt8)} {id : ChannelId} {channel : Channel}
  {action : ChannelAction} {timestamp : ℤ} {message : Option (List UInt8)} {P Q : Prop}

theorem DialogueAt.valid {lines : List (List UInt8)} {state : Option ChannelState}
    (h : DialogueAt P lines state) : ValidDialogue lines := by
  match state, h with
  | none, h => exact h
  | some .initial, h => exact h ▸ OpenDialogue.nil.valid
  | some .confirmed, h => exact h.1.valid
  | some .closed, h => exact h

theorem DialogueAt.mono {lines : List (List UInt8)} {state : Option ChannelState}
    (h : DialogueAt P lines state) (hPQ : P → Q) : DialogueAt Q lines state := by
  match state, h with
  | none, h => exact h
  | some .initial, h => exact h
  | some .confirmed, h => exact ⟨h.1, fun hl => hPQ (h.2 hl)⟩
  | some .closed, h => exact h

theorem DialogueState.mono (h : DialogueState P start id w) (hPQ : P → Q) :
    DialogueState Q start id w := by
  obtain ⟨hw, lines, hwire, hat⟩ := h
  exact ⟨hw, lines, hwire, hat.mono hPQ⟩

theorem DialogueState.atTick (h : DialogueState P start id w) (n : ℕ) :
    DialogueState P start id (w.atTick n) := h

/-- Whatever was owed, a channel that is closed or freed ends its dialogue. -/
theorem DialogueState.ended (h : DialogueState P start id w) (table : ChannelsTable)
    (hend : (table.lookup id).map Channel.state = none ∨
      (table.lookup id).map Channel.state = some .closed) :
    DialogueState False start id { w with channels := table } := by
  obtain ⟨hw, lines, hwire, hat⟩ := h
  refine ⟨hw, lines, hwire, ?_⟩
  rcases hend with hend | hend
  · simp only [hend]; exact hat.valid
  · simp only [hend]; exact hat.valid

theorem DialogueAt.sent {lines : List (List UInt8)} (h : DialogueAt P lines (some channel.state))
    (hf : action.forbidden channel.state = false)
    (hstart : P → needsStatePrefix channel action (messageText message) = true) :
    DialogueAt False (lines ++ [channelLine channel action timestamp message])
      (some action.nextState) := by
  -- the lines so far are open, and a first line carries a prefix
  have hopen : OpenDialogue lines ∧
      (lines = [] → Opens (channelLine channel action timestamp message)) := by
    cases hs : channel.state with
    | initial =>
      rw [hs] at h
      exact ⟨(show lines = [] from h) ▸ .nil, fun _ =>
        channelLine_opens _ _ _ _ (by simp [needsStatePrefix, hs])⟩
    | confirmed =>
      rw [hs] at h
      exact ⟨h.1, fun hl => channelLine_opens _ _ _ _ (hstart (h.2 hl))⟩
    | closed => rw [hs] at hf; cases hf
  by_cases hc : action.channelContinues = true
  · have herr : action ≠ .err := by rintro rfl; cases hc
    simp only [ChannelAction.nextState, hc, ↓reduceIte]
    refine ⟨hopen.1.continued (channelLine_continues _ _ _ _ hc) ?_ hopen.2, by simp⟩
    rw [channelLine_err_iff]
    exact herr
  · simp only [ChannelAction.nextState, hc]
    exact hopen.1.closed (channelLine_closes _ _ _ _ (by simpa using hc)) hopen.2

theorem DialogueAt.unsent {lines : List (List UInt8)} (h : DialogueAt P lines (some channel.state))
    (hf : action.forbidden channel.state = false) :
    DialogueAt (action.channelContinues = true) lines (some action.nextState) := by
  have hopen : OpenDialogue lines := by
    cases hs : channel.state with
    | initial => rw [hs] at h; exact (show lines = [] from h) ▸ .nil
    | confirmed => rw [hs] at h; exact h.1
    | closed => rw [hs] at hf; cases hf
  by_cases hc : action.channelContinues = true
  · simp only [ChannelAction.nextState, hc, ↓reduceIte]
    exact ⟨hopen, fun _ => trivial⟩
  · simp only [ChannelAction.nextState, hc]
    exact hopen.valid

/-- `send_channel` on a channel that owes nothing, or with a line that carries a prefix: the
dialogue stays valid, and a confirmed channel without a line is left behind only if the line could
not be sent. -/
theorem DialogueState.send (h : DialogueState P start id w)
    (hid : w.channels.lookup id = some channel)
    (hstart : P → needsStatePrefix channel action (messageText message) = true)
    (ht : timestamp = currentTimeReference ∨ 0 ≤ timestamp) :
    let r := (sendChannel id channel action timestamp message).run w
    (r.val ≠ .none ∧ ∃ n, w.tick ≤ n ∧ r.state = w.atTick n ∧
      (action.forbidden channel.state = true ∨ w.env.pendingAt .session n = true)) ∨
    DialogueState (r.val ≠ .none ∧ action.channelContinues = true) start id r.state := by
  obtain ⟨hw, lines, hwire, hat⟩ := h
  rw [hid] at hat
  intro r
  obtain ⟨n, hn, ⟨hstate, hval, hwhy⟩ | ⟨hf, ts, hstate⟩⟩ :=
    sendChannel_run id channel action message hw ht
  · exact .inl ⟨hval, n, hn, hstate, hwhy⟩
  · right
    have hafter : (r.state.channels.lookup id).map Channel.state = some action.nextState := by
      simp only [r, hstate, ChannelsTable.lookup_modify_self, hid, Option.map_some]
    have henv : r.state.env = w.env ∧ r.state.referenceMillis = w.referenceMillis := by
      simp [r, hstate, World.atTick]
    refine ⟨by rw [henv.1, henv.2]; exact hw, ?_⟩
    rw [hafter]
    by_cases hval : r.val = .none
    · refine ⟨lines ++ [channelLine channel action ts message], ?_, ?_⟩
      · have : r.state.wire = w.wire ++ [channelLine channel action ts message] := by
          simp only [r, hstate]
          exact if_pos hval
        rw [this, hwire, List.append_assoc]
      · exact (hat.sent hf hstart).mono False.elim
    · refine ⟨lines, ?_, ?_⟩
      · have : r.state.wire = w.wire := by
          simp only [r, hstate]
          exact if_neg hval
        rw [this, hwire]
      · exact (hat.unsent hf).mono fun hc => ⟨hval, hc⟩

/-! ### The message functions -/

theorem DialogueState.invariant (h : DialogueState False start id w) :
    DialogueInvariant start id w := h.mono False.elim

/-- Nothing is owed once the lock of the session was granted. -/
theorem DialogueInvariant.of_pending_false (h : DialogueInvariant start id w)
    (hp : w.env.pendingAt .session w.tick = false) : DialogueState False start id w :=
  h.mono fun hp' => by rw [hp] at hp'; cases hp'

theorem DialogueInvariant.locked (h : DialogueInvariant start id w) (hr : ¬ w.refuses .session) :
    DialogueState False start id (w.holding .session) := by
  have hp : w.env.pendingAt .session w.tick = false := by
    rw [World.refuses, not_or] at hr
    simpa using hr.1
  exact h.of_pending_false hp

theorem DialogueState.sendMessage (h : DialogueState False start id w) (action : ChannelAction)
    (message : Option (List UInt8)) (hid : w.channels.lookup id = some channel)
    (ht : timestamp = currentTimeReference ∨ 0 ≤ timestamp) :
    DialogueState (((sendChannel id channel action timestamp message).run w).val ≠ .none) start id
      ((sendChannel id channel action timestamp message).run w).state := by
  rcases h.send hid False.elim ht with ⟨hval, n, -, hstate, -⟩ | hsent
  · rw [hstate]
    exact h.mono False.elim
  · exact hsent.mono And.left

/-- An error settles what is owed. -/
theorem DialogueState.sendError (h : DialogueState P start id w)
    (hid : w.channels.lookup id = some channel)
    (ht : timestamp = currentTimeReference ∨ 0 ≤ timestamp) :
    DialogueInvariant start id ((sendChannel id channel .err timestamp message).run w).state := by
  have hstart : needsStatePrefix channel .err (messageText message) = true := by
    simp [needsStatePrefix]
  rcases h.send hid (fun _ => hstart) ht with ⟨-, n, hn, hstate, hf | hp⟩ | hsent
  · -- an error is forbidden on a closed channel only
    have hclosed : channel.state = .closed := by
      cases hs : channel.state with
      | initial => rw [hs] at hf; cases hf
      | confirmed => rw [hs] at hf; cases hf
      | closed => rfl
    rw [hstate]
    refine DialogueState.invariant ?_
    exact h.ended w.channels (.inr (by rw [hid, Option.map_some, hclosed]))
  · rw [hstate]
    exact h.mono fun _ => hp
  · exact (hsent.mono fun hc => by cases hc.2).invariant

/-- The frame of the message functions keeps the invariant if the body establishes it.  `hrefused`
says that what is owed is accounted for if the lock is refused. -/
theorem DialogueState.onChannel {body : Channel → M μ ErrorCode} (h : DialogueState P start id w)
    (hrefused : ∀ n, w.tick ≤ n → (0 < w.depth .session → w.env.pendingAt .session n = true) →
      P → w.env.pendingAt .session n = true)
    (hbody : ∀ channel, ¬ w.refuses .session → w.channels.lookup id = some channel →
      DialogueInvariant start id ((body channel).run (w.holding .session)).state) :
    DialogueInvariant start id ((onChannel id body).run w).state := by
  by_cases hr : w.refuses .session
  · obtain ⟨n, hn, -, hstate, -, hp⟩ := onChannel_refused id body hr
    rw [hstate]
    exact h.mono (hrefused n hn hp)
  · cases hid : w.channels.lookup id with
    | none =>
      rw [onChannel_missing hr hid]
      have hend := h.ended w.channels (.inl (by rw [hid]; rfl))
      exact DialogueState.invariant (w := w.holding .session) hend
    | some channel =>
      rw [onChannel_found hr hid]
      exact hbody channel hr hid

theorem DialogueState.errorChannel (h : DialogueState P start id w) (hheld : 0 < w.depth .session)
    (ht : timestamp = currentTimeReference ∨ 0 ≤ timestamp) :
    DialogueInvariant start id ((errorChannel id timestamp message).run w).state :=
  h.onChannel (fun _ _ hp _ => hp hheld)
    fun _ _ hid => DialogueState.sendError (w := w.holding .session) h hid ht

theorem DialogueInvariant.errorChannel (h : DialogueInvariant start id w)
    (ht : timestamp = currentTimeReference ∨ 0 ≤ timestamp) :
    DialogueInvariant start id ((errorChannel id timestamp message).run w).state :=
  DialogueState.onChannel h (fun _ hn _ hp => Environment.pendingAt_mono hn hp)
    fun _ hr hid => (h.locked hr).sendError hid ht

theorem DialogueInvariant.messageChannel {kind : Channel → ChannelAction} {failure : String}
    (h : DialogueInvariant start id w)
    (ht : timestamp = currentTimeReference ∨ 0 ≤ timestamp) :
    DialogueInvariant start id
      ((messageChannel kind failure id timestamp message).run w).state := by
  refine DialogueState.onChannel h (fun _ hn _ hp => Environment.pendingAt_mono hn hp) ?_
  intro channel hr hid
  have hframe :=
    (sendChannel_keeps id channel (kind channel) timestamp message (w.holding .session)).2
  have hsend := (h.locked hr).sendMessage (kind channel) message hid ht
  rw [Logged.run_bind, Outcome.after_state, Logged.run_ite]
  split_ifs with hval
  · -- the error that follows a failed message finds the session still locked
    refine DialogueState.errorChannel hsend ?_ ht
    rw [hframe.depth]
    simp [LockOp.apply]
  · exact (hsend.mono hval).invariant

theorem DialogueInvariant.sendMessage (h : DialogueInvariant start id w) {message : ChannelMessage}
    (ht : message.Timed) : DialogueInvariant start id ((message.exec id).run w).state := by
  unfold ChannelMessage.exec
  cases message.call with
  | confirm => exact h.messageChannel ht
  | continues => exact h.messageChannel ht
  | finish => exact h.messageChannel ht
  | error => exact h.errorChannel ht

/-! ### The destructor -/

theorem DialogueState.modifyChannel (h : DialogueState P start id w) {f : Channel → Channel}
    (hf : ∀ channel, (f channel).state = channel.state) :
    DialogueState P start id ((modifyChannel id f).run w).state := by
  obtain ⟨hw, lines, hwire, hat⟩ := h
  refine ⟨hw, lines, hwire, ?_⟩
  have hsame : ((w.channels.modify id f).lookup id).map Channel.state =
      (w.channels.lookup id).map Channel.state := by
    rw [ChannelsTable.lookup_modify_self, Option.map_map]
    exact congrArg (fun g => (w.channels.lookup id).map g) (funext hf)
  simpa [Session.modifyChannel, hsame] using hat

theorem DialogueInvariant.closeChannel (h : DialogueInvariant start id w)
    (hid : w.channels.lookup id = some channel) :
    DialogueState False start id ((closeChannel id channel).run w).state := by
  unfold Session.closeChannel
  rw [Logged.run_ite]
  split_ifs with hclosed
  · exact h.ended w.channels (.inr (by rw [hid, Option.map_some, hclosed]))
  · -- whatever is sent, the channel is closed afterwards
    have hset : ∀ {P : Prop} {w' : World μ}, DialogueState P start id w' →
        (w'.channels.lookup id).isSome → DialogueState False start id
          ((modifyChannel id fun channel => { channel with state := .closed }).run w').state := by
      intro P w' h' hid'
      obtain ⟨channel', hchannel'⟩ := Option.isSome_iff_exists.1 hid'
      refine h'.ended _ (.inr ?_)
      rw [ChannelsTable.lookup_modify_self, hchannel']
      rfl
    rw [Logged.run_bind, Outcome.after_state, destructionPending, run_ask]
    cases hp : w.env.pendingAt .session w.tick with
    | true =>
      have hpresent : ((w.atTick (w.tick + 1)).channels.lookup id).isSome := by
        rw [World.atTick_channels, hid]
        rfl
      exact hset h hpresent
    | false =>
      have hsend := (h.of_pending_false hp).atTick (w.tick + 1) |>.sendMessage .close none hid
        (.inl rfl)
      refine hset hsend ?_
      rw [(sendChannel_keeps id channel .close _ none _).2.present, World.atTick_channels, hid]
      rfl

end

/-! ### Sequences of calls -/

/-- What every call on the channel `id` preserves, one clause for each thing a call does. -/
structure ChannelInvariant {μ : Type} (id : ChannelId) (I : World μ → Prop) : Prop where
  message : ∀ w (message : ChannelMessage), I w → message.Timed →
    I ((message.exec id).run w).state
  flagged : ∀ w, I w → I { w with
    channels := w.channels.modify id fun channel => { channel with destructionRequested := true } }
  closed : ∀ w channel, I w → w.channels.lookup id = some channel →
    I ((Session.closeChannel id channel).run w).state
  freed : ∀ w, I w → I { w with channels := w.channels.erase id }

namespace ChannelInvariant

variable {μ : Type} {w : World μ} {id : ChannelId} {I : World μ → Prop}

theorem sendMessages (hI : ChannelInvariant id I) (hw : I w) :
    ∀ {messages : List ChannelMessage}, (∀ message ∈ messages, message.Timed) →
      I ((sendMessages id messages).run w).state := by
  intro messages ht
  induction messages generalizing w with
  | nil => exact hw
  | cons message rest ih =>
    exact ih (hI.message w message hw (ht message (by simp))) fun m hm => ht m (by simp [hm])

theorem terminateChannel (hI : ChannelInvariant id I) (hw : I w)
    {terminate : Command → Option ℕ → M μ ErrorCode}
    (hterm : ∀ command ref w, I w → I ((terminate command ref).run w).state) (channel : Channel) :
    I ((Session.terminateChannel terminate id channel).run w).state := by
  unfold Session.terminateChannel
  rw [Logged.run_ite]
  split_ifs
  · exact hw
  · cases channel.command with
    | none => exact hI.flagged w hw
    | some command => exact hI.flagged _ (hterm command _ w hw)

theorem freeChannel (hI : ChannelInvariant id I) (hw : I w)
    {destroy : Command → Option ℕ → M μ ErrorCode}
    (hdestroy : ∀ command ref w, I w → I ((destroy command ref).run w).state) (channel : Channel) :
    I ((Session.freeChannel destroy id channel).run w).state := by
  unfold Session.freeChannel
  cases channel.command with
  | none => exact hI.freed w hw
  | some command =>
    rw [Logged.run_bind, Outcome.after_state, Logged.run_ite]
    split_ifs
    · exact hdestroy command _ w hw
    · exact hI.freed _ (hdestroy command _ w hw)

theorem destroySessionChannel (hI : ChannelInvariant id I) (hw : I w)
    {terminate destroy : Command → Option ℕ → M μ ErrorCode}
    (hterm : ∀ command ref w, I w → I ((terminate command ref).run w).state)
    (hdestroy : ∀ command ref w, I w → I ((destroy command ref).run w).state) :
    I ((Session.destroySessionChannel terminate destroy id).run w).state := by
  unfold Session.destroySessionChannel
  rw [Logged.run_bind, Outcome.after_state, Session.run_getChannel]
  cases w.channels.lookup id with
  | none => exact hw
  | some channel =>
    have hstopped := hI.terminateChannel hw hterm channel
    dsimp only
    rw [Logged.run_bind, Outcome.after_state, Logged.run_bind, Outcome.after_state,
      Session.run_getChannel]
    cases hid :
      ((Session.terminateChannel terminate id channel).run w).state.channels.lookup id with
    | none => exact hstopped
    | some channel' => exact hI.freeChannel (hI.closed _ channel' hstopped hid) hdestroy channel'

theorem execEvents (hI : ChannelInvariant id I) (hw : I w) :
    ∀ {events : List ChannelEvent}, (∀ event ∈ events, event.Timed) →
      I ((execEvents id events).run w).state := by
  intro events ht
  induction events generalizing w with
  | nil => exact hw
  | cons event rest ih =>
    refine ih ?_ fun e he => ht e (by simp [he])
    have htimed := ht event (by simp)
    cases event with
    | send message => exact hI.message w message hw htimed
    | destroy messages terminated destroyed =>
      exact hI.destroySessionChannel hw (fun _ _ _ hw => hI.sendMessages hw htimed) fun _ _ _ hw =>
        hw

end ChannelInvariant

section

open Session

variable {μ : Type} {w : World μ} {start : List (List UInt8)} {id : ChannelId} {channel : Channel}
  {timestamp : ℤ} {message : Option (List UInt8)}

theorem dialogueInvariant_channelInvariant (start : List (List UInt8)) (id : ChannelId) :
    ChannelInvariant id (DialogueInvariant (μ := μ) start id) where
  message _ _ h ht := h.sendMessage ht
  flagged _ h := DialogueState.modifyChannel h fun _ => rfl
  closed _ _ h hid := (h.closeChannel hid).invariant
  freed _ h :=
    (DialogueState.ended h _ (.inl (by rw [ChannelsTable.lookup_erase_self]; rfl))).invariant

/-! ### A closed channel is silent -/

/-- The wire is as it was at `start`, and the channel is closed or gone. -/
def Silent (start : List (List UInt8)) (id : ChannelId) (w : World μ) : Prop :=
  w.wire = start ∧ ∀ channel, w.channels.lookup id = some channel → channel.state = .closed

theorem Silent.sendChannel (h : Silent start id w) (action : ChannelAction)
    (message : Option (List UInt8)) (hid : w.channels.lookup id = some channel) :
    Silent start id ((sendChannel id channel action timestamp message).run w).state := by
  obtain ⟨-, n, -, hstate⟩ := resolveTimestamp_ticks timestamp w
  have hf : action.forbidden channel.state = true := by rw [h.2 channel hid]; rfl
  have : ((Session.sendChannel id channel action timestamp message).run w).state = w.atTick n := by
    simp only [Session.sendChannel, Logged.run_bind, Outcome.after_state, Logged.run_ite, hf,
      ↓reduceIte, hstate]
    split_ifs <;> rfl
  rw [this]
  exact h

theorem Silent.onChannel (h : Silent start id w) {body : Channel → M μ ErrorCode}
    (hbody : ∀ channel w, Silent start id w → w.channels.lookup id = some channel →
      Silent start id ((body channel).run w).state) :
    Silent start id ((onChannel id body).run w).state := by
  by_cases hr : w.refuses .session
  · obtain ⟨n, -, -, hstate, -⟩ := onChannel_refused id body hr
    rw [hstate]
    exact h
  · cases hid : w.channels.lookup id with
    | none => rw [onChannel_missing hr hid]; exact h
    | some channel =>
      rw [onChannel_found hr hid]
      exact hbody channel (w.holding .session) h hid

theorem Silent.errorChannel (h : Silent start id w) (message : Option (List UInt8)) :
    Silent start id ((errorChannel id timestamp message).run w).state :=
  h.onChannel fun _ _ h hid => h.sendChannel .err message hid

theorem Silent.messageChannel (h : Silent start id w) {kind : Channel → ChannelAction}
    {failure : String} :
    Silent start id ((messageChannel kind failure id timestamp message).run w).state := by
  refine h.onChannel fun channel w h hid => ?_
  have hsend : Silent start id
      ((Session.sendChannel id channel (kind channel) timestamp message).run w).state :=
    h.sendChannel (kind channel) message hid
  rw [Logged.run_bind, Outcome.after_state, Logged.run_ite]
  split_ifs
  · exact hsend.errorChannel _
  · exact hsend

theorem Silent.closeChannel (h : Silent start id w) (hid : w.channels.lookup id = some channel) :
    Silent start id ((closeChannel id channel).run w).state := by
  unfold Session.closeChannel
  rw [if_pos (h.2 channel hid)]
  exact h

theorem silent_channelInvariant (start : List (List UInt8)) (id : ChannelId) :
    ChannelInvariant id (Silent (μ := μ) start id) where
  message w message h _ := by
    unfold ChannelMessage.exec
    cases message.call with
    | confirm => exact h.messageChannel
    | continues => exact h.messageChannel
    | finish => exact h.messageChannel
    | error => exact h.errorChannel _
  flagged w h := by
    refine ⟨h.1, fun channel hid => ?_⟩
    rw [ChannelsTable.lookup_modify_self] at hid
    obtain ⟨channel', hid', rfl⟩ := Option.map_eq_some_iff.1 hid
    exact h.2 channel' hid'
  closed _ _ h hid := h.closeChannel hid
  freed w h := by
    refine ⟨h.1, fun channel hid => ?_⟩
    rw [ChannelsTable.lookup_erase_self] at hid
    cases hid

/-- **The dialogue on a channel.**  Whatever is called on a new channel, and whichever lines can be
sent, the lines put on the wire, one for each transmission, are a valid dialogue.  Once the channel
is closed (or freed) it stays so, and later calls put nothing on the wire. -/
theorem channel_dialogue_valid (w : World μ) (id : ChannelId) (channel : Channel)
    (hid : w.channels.lookup id = some channel) (hnew : channel.state = .initial)
    (hw : w.env.Resourceful w.referenceMillis) (events : List ChannelEvent)
    (ht : ∀ event ∈ events, event.Timed) :
    let w' := ((execEvents id events).run w).state
    (∃ lines, w'.wire = w.wire ++ lines ∧ ValidDialogue lines) ∧
      ((∀ channel, w'.channels.lookup id = some channel → channel.state = .closed) →
        ∀ later : List ChannelEvent, (∀ event ∈ later, event.Timed) →
          let w'' := ((execEvents id later).run w').state
          w''.wire = w'.wire ∧
            ∀ channel, w''.channels.lookup id = some channel → channel.state = .closed) := by
  intro w'
  constructor
  · have hstart : DialogueInvariant w.wire id w := by
      refine ⟨hw, [], (List.append_nil _).symm, ?_⟩
      rw [hid, Option.map_some, hnew]
      exact rfl
    obtain ⟨-, lines, hwire, hat⟩ :=
      (dialogueInvariant_channelInvariant w.wire id).execEvents hstart ht
    exact ⟨lines, hwire, hat.valid⟩
  · intro hclosed later htlater
    exact (silent_channelInvariant w'.wire id).execEvents ⟨rfl, hclosed⟩ htlater

end

/-- A new channel `aaaa` that is confirmed, continued and finished. -/
theorem channel_dialogue_valid_aaaa :
    let channel : Channel := ⟨0, .initial, false, none, none⟩
    let w : World Unit := { World.idle () with channels := .single channel }
    let events : List ChannelEvent :=
      [.send ⟨.confirm, -1, none⟩, .send ⟨.continues, 7, some (bytes "x")⟩,
        .send ⟨.finish, -1, none⟩]
    let w' := ((execEvents 0 events).run w).state
    w'.wire = [bytes "+ACK aaaa 0\n", bytes "+aaaa 7 x\n", bytes "-ACK aaaa 0\n"] ∧
      ∃ lines, w'.wire = w.wire ++ lines ∧ ValidDialogue lines := by
  intro channel w events w'
  have htable : w.channels.lookup 0 = some channel := ChannelsTable.lookup_single (by decide)
  have hw : w.env.Resourceful w.referenceMillis :=
    ⟨fun _ => rfl, by decide, fun _ => ⟨⟨0, 0⟩, rfl, by decide⟩⟩
  have ht : ∀ event ∈ events, event.Timed := by
    intro event hevent
    simp only [events, List.mem_cons, List.not_mem_nil, or_false] at hevent
    rcases hevent with rfl | rfl | rfl
    · exact .inl rfl
    · exact .inr (by decide)
    · exact .inl rfl
  exact ⟨by decide, (channel_dialogue_valid w 0 channel htable rfl hw events ht).1⟩

end XprcServer
