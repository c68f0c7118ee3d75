import XprcServer.Session.Messages

/-!
# Answers where nothing fails

What a program does on a session while memory can be allocated, the session be locked and the client
reached: it takes time, and tells the client something on a channel.

* `Gives`, `Ends` : how such programs are composed;
* `Session.sendChannel_sends` : a message that is allowed gets through;
* `Session.errorChannel_told`, `Session.finishChannel_told` : the messages that end a channel.
-/

namespace XprcServer

open Lib

/-- Memory can be allocated, the session be locked and the client reached, and the clock goes on. -/
structure World.Obliging {μ : Type} (w : World μ) : Prop where
  alloc : ∀ tick, w.env.alloc tick = true
  session : ∀ tick, ¬ (w.atTick tick).refuses .session
  send : ∀ tick, w.env.send tick = .none
  clock : ∀ tick, ∃ now, w.env.clock tick = some now ∧ w.referenceMillis ≤ millisOfTimespec now
  reference : 0 ≤ w.referenceMillis

section

variable {μ α β : Type} {w w' w'' : World μ} {p : M μ α} {f : α → M μ β} {a : α} {b : β}
  {Q : β → World μ → Prop} {id : ChannelId} {channel : Channel} {action : ChannelAction}

theorem World.Ticks.channels (ht : w.Ticks w') : w'.channels = w.channels := by
  obtain ⟨n, -, rfl⟩ := ht
  rfl

theorem World.Obliging.ticks (h : w.Obliging) (ht : w.Ticks w') : w'.Obliging := by
  obtain ⟨n, -, rfl⟩ := ht
  exact ⟨h.alloc, h.session, h.send, h.clock, h.reference⟩

theorem World.Obliging.granted (h : w.Obliging) : ¬ w.refuses .session := h.session w.tick

theorem World.Obliging.holding (h : w.Obliging) (l : Lock) : (w.holding l).Obliging := by
  refine ⟨h.alloc, fun tick hrefuses => ?_, h.send, h.clock, h.reference⟩
  -- a mutex that is held is locked once more
  refine h.session tick (hrefuses.imp_right (Or.imp_left ?_))
  rintro ⟨hdepth, hmtx⟩
  refine ⟨?_, hmtx⟩
  cases l <;> simp_all [World.holding, World.atTick, World.apply, LockOp.apply]

/-- The program returns `a` and leaves no trace but the time it took. -/
def Gives (p : M μ α) (w : World μ) (a : α) : Prop := (p.run w).val = a ∧ w.Ticks (p.run w).state

/-- What holds of the result of the program and of the state after it. -/
def Ends (p : M μ α) (w : World μ) (Q : α → World μ → Prop) : Prop :=
  Q (p.run w).val (p.run w).state

theorem Gives.pure (a : α) (w : World μ) : Gives (Pure.pure a) w a := ⟨rfl, Std.Refl.refl w⟩

theorem Gives.bind (hp : Gives p w a) (hf : ∀ w', w.Ticks w' → Gives (f a) w' b) :
    Gives (p >>= f) w b := by
  obtain ⟨hval, hticks⟩ := hp
  obtain ⟨hval', hticks'⟩ := hf _ hticks
  subst hval
  exact ⟨hval', IsTrans.trans _ _ _ hticks hticks'⟩

theorem Gives.ends (hp : Gives p w a) (hf : ∀ w', w.Ticks w' → Ends (f a) w' Q) :
    Ends (p >>= f) w Q := by
  obtain ⟨hval, hticks⟩ := hp
  subst hval
  exact hf _ hticks

theorem Ends.andThen {P : α → World μ → Prop} (hp : Ends p w P)
    (hf : ∀ a w', P a w' → Ends (f a) w' Q) : Ends (p >>= f) w Q :=
  hf _ _ hp

theorem allocate_gives (h : w.Obliging) : Gives Session.allocate w true :=
  ⟨h.alloc _, w.tick + 1, Nat.le_succ _, rfl⟩

/-! ### Messages -/

/-- The state after a message on the channel -/
def World.sent (w : World μ) (id : ChannelId) (action : ChannelAction)
    (line : List UInt8) : World μ :=
  { w with
    channels := w.channels.modify id fun channel => { channel with state := action.nextState }
    wire := w.wire ++ [line] }

theorem World.Obliging.sent (h : w.Obliging) (line : List UInt8) :
    (w.sent id action line).Obliging :=
  ⟨h.alloc, h.session, h.send, h.clock, h.reference⟩

theorem World.sent_lookup (hid : w.channels.lookup id = some channel) (line : List UInt8) :
    (w.sent id action line).channels.lookup id =
      some { channel with state := action.nextState } := by
  change (w.channels.modify id _).lookup id = _
  rw [ChannelsTable.lookup_modify_self, hid]
  rfl

/-- The client is told something on a channel, and nothing else happens. -/
def Told (id : ChannelId) (action : ChannelAction) (w w' : World μ) : Prop :=
  ∃ channel ts message, w.channels.lookup id = some channel ∧
    (w.sent id action (channelLine channel action ts message)).Ticks w'

theorem Told.of_ticks (ht : w.Ticks w') (h : Told id action w' w'') : Told id action w w'' := by
  obtain ⟨n, hn, rfl⟩ := ht
  obtain ⟨channel, ts, message, hid, n', hn', rfl⟩ := h
  exact ⟨channel, ts, message, hid, n', Nat.le_trans hn hn', rfl⟩

theorem Told.ticks (h : Told id action w w') (ht : w'.Ticks w'') : Told id action w w'' := by
  obtain ⟨channel, ts, message, hid, h⟩ := h
  exact ⟨channel, ts, message, hid, IsTrans.trans _ _ _ h ht⟩

theorem Told.configs (h : Told id action w w') : w'.configs = w.configs := by
  obtain ⟨_, _, _, _, _, _, rfl⟩ := h
  rfl

theorem Told.memory (h : Told id action w w') : w'.memory = w.memory := by
  obtain ⟨_, _, _, _, _, _, rfl⟩ := h
  rfl

theorem Told.wire (h : Told id action w w') : ∃ channel ts message,
    w.channels.lookup id = some channel ∧ w'.wire = w.wire ++
      [channelLine channel action ts message] := by
  obtain ⟨channel, ts, message, hid, _, _, rfl⟩ := h
  exact ⟨channel, ts, message, hid, rfl⟩

theorem Told.obliging (h : Told id action w w') (hw : w.Obliging) : w'.Obliging := by
  obtain ⟨_, _, _, _, h⟩ := h
  exact (hw.sent _).ticks h

/-- The channel is in the state that the message leaves it in. -/
theorem Told.state (h : Told id action w w') :
    ∃ channel, w'.channels.lookup id = some channel ∧ channel.state = action.nextState := by
  obtain ⟨channel, ts, message, hid, h⟩ := h
  exact ⟨_, h.channels ▸ World.sent_lookup hid _, rfl⟩

namespace Session

/-- The timestamp is to be looked up, or not negative. -/
abbrev Timed (timestamp : ℤ) : Prop := timestamp = currentTimeReference ∨ 0 ≤ timestamp

theorem millisSinceReference_gives (h : w.Obliging) :
    ∃ now, 0 ≤ now ∧ Gives millisSinceReference w now := by
  obtain ⟨now, hclock, hnow⟩ := h.clock (w.tick + 1)
  have hreference := h.reference
  have hpending : w.env.pendingAt .session w.tick = false := by
    have := h.session w.tick
    simp only [World.refuses, not_or, Bool.not_eq_true] at this
    exact this.1
  have hrun : (millisSinceReference : M μ ℤ).run w =
      ⟨millisOfTimespec now - w.referenceMillis, w.atTick (w.tick + 2), []⟩ := by
    simp [millisSinceReference, destructionPending, hpending, World.atTick, hclock,
      show ¬ w.referenceMillis < 0 by omega, show ¬ millisOfTimespec now < 0 by omega,
      show ¬ millisOfTimespec now < w.referenceMillis by omega]
  refine ⟨millisOfTimespec now - w.referenceMillis, by omega, ?_⟩
  rw [Gives, hrun]
  exact ⟨rfl, w.tick + 2, by omega, rfl⟩

theorem resolveTimestamp_gives (h : w.Obliging) {timestamp : ℤ} (ht : Timed timestamp) :
    ∃ ts, 0 ≤ ts ∧ (0 ≤ timestamp → ts = timestamp) ∧ Gives (resolveTimestamp timestamp) w ts := by
  by_cases hcurrent : timestamp = currentTimeReference
  · obtain ⟨now, hnow, hgives⟩ := millisSinceReference_gives h
    refine ⟨now, hnow, fun hnonneg => ?_, ?_⟩
    · rw [hcurrent] at hnonneg
      exact absurd hnonneg (by decide)
    · rw [resolveTimestamp, if_pos hcurrent]
      exact hgives
  · refine ⟨timestamp, ht.resolve_left hcurrent, fun _ => rfl, ?_⟩
    rw [resolveTimestamp, if_neg hcurrent]
    exact .pure _ _

/-- A message that is allowed gets through. -/
theorem sendChannel_sends (id : ChannelId) (h : w.Obliging) {timestamp : ℤ} (ht : Timed timestamp)
    (message : Option (List UInt8)) (hallowed : action.forbidden channel.state = false) :
    Ends (sendChannel id channel action timestamp message) w fun err w' => err = .none ∧
      ∃ ts, (0 ≤ timestamp → ts = timestamp) ∧
        (w.sent id action (channelLine channel action ts message)).Ticks w' := by
  obtain ⟨ts, hts, heq, hgives⟩ := resolveTimestamp_gives h ht
  refine hgives.ends fun w' hw' => ?_
  have h' := h.ticks hw'
  obtain ⟨n, hn, rfl⟩ := hw'
  rw [if_neg (Int.not_lt.2 hts), hallowed]
  refine (allocate_gives h').ends fun w' ht' => ?_
  obtain ⟨n', hn', rfl⟩ := ht'
  have hsend : w.env.send n' = .none := h.send n'
  refine ⟨by simp [sendToNetwork, hsend], ts, heq, n' + 1,
    Nat.le_succ_of_le (Nat.le_trans hn hn'), ?_⟩
  simp [sendToNetwork, modifyChannel, hsend, World.sent, World.atTick]

theorem sendChannel_closed (id : ChannelId) (action : ChannelAction) (message : Option (List UInt8))
    (h : w.Obliging) {timestamp : ℤ} (ht : Timed timestamp) (hclosed : channel.state = .closed) :
    Ends (sendChannel id channel action timestamp message) w fun err w' =>
      err ≠ .none ∧ w.Ticks w' := by
  obtain ⟨ts, hts, -, hgives⟩ := resolveTimestamp_gives h ht
  refine hgives.ends fun w' ht => ?_
  rw [if_neg (Int.not_lt.2 hts), hclosed]
  exact ⟨ErrorCode.noConfusion, ht⟩

/-- A body that leaves no trace leaves none from before locking to after unlocking. -/
theorem unlocked_ticks (h : (w.holding .session).Ticks w') :
    w.Ticks (w'.apply (.unlock .session)) := by
  obtain ⟨n, hn, rfl⟩ := h
  exact ⟨n, Nat.le_trans (Nat.le_add_right _ 3) hn,
    congrArg (World.atTick · n) (World.apply_unlock_apply_lock w .session)⟩

theorem unlocked_sent {line : List UInt8}
    (h : ((w.holding .session).sent id action line).Ticks w') :
    (w.sent id action line).Ticks (w'.apply (.unlock .session)) := by
  obtain ⟨n, hn, rfl⟩ := h
  exact ⟨n, Nat.le_trans (Nat.le_add_right _ 3) hn,
    congrArg (fun u => (World.sent u id action line).atTick n)
      (World.apply_unlock_apply_lock w .session)⟩

theorem errorChannel_told (message : Option (List UInt8)) (h : w.Obliging)
    (hid : w.channels.lookup id = some channel) (hopen : channel.state ≠ .closed) :
    Ends (errorChannel id currentTimeReference message) w fun _ w' => Told id .err w w' := by
  have hallowed : ChannelAction.forbidden .err channel.state = false := by
    cases hstate : channel.state with
    | closed => exact absurd hstate hopen
    | initial => rfl
    | confirmed => rfl
  rw [Ends, errorChannel, onChannel_found h.granted hid]
  obtain ⟨-, ts, -, hsent⟩ := sendChannel_sends id (h.holding .session) (.inl rfl) message hallowed
  exact ⟨channel, ts, message, hid, unlocked_sent hsent⟩

theorem errorChannel_closed (message : Option (List UInt8)) (h : w.Obliging)
    (hid : w.channels.lookup id = some channel) (hclosed : channel.state = .closed) :
    Ends (errorChannel id currentTimeReference message) w fun _ w' => w.Ticks w' := by
  rw [Ends, errorChannel, onChannel_found h.granted hid]
  exact unlocked_ticks (sendChannel_closed id .err message (h.holding .session)
    (.inl rfl) hclosed).2

/-- The other messages, if they are allowed. -/
theorem messageChannel_sends (kind : Channel → ChannelAction) (failure : String) (h : w.Obliging)
    {timestamp : ℤ} (ht : Timed timestamp) (message : Option (List UInt8))
    (hid : w.channels.lookup id = some channel)
    (hallowed : (kind channel).forbidden channel.state = false) :
    Ends (messageChannel kind failure id timestamp message) w fun err w' => err = .none ∧
      ∃ ts, (0 ≤ timestamp → ts = timestamp) ∧
        (w.sent id (kind channel) (channelLine channel (kind channel) ts message)).Ticks w' := by
  obtain ⟨hval, ts, hts, hsent⟩ := sendChannel_sends id (h.holding .session) ht message hallowed
  rw [Ends, messageChannel, onChannel_found h.granted hid]
  simp only [Logged.run_bind, Outcome.after, hval]
  exact ⟨rfl, ts, hts, unlocked_sent hsent⟩

theorem finishChannel_told (message : Option (List UInt8)) (h : w.Obliging)
    (hid : w.channels.lookup id = some channel) (hinitial : channel.state = .initial) :
    Ends (finishChannel id currentTimeReference message) w fun err w' =>
      err = .none ∧ Told id .ackClose w w' := by
  obtain ⟨hval, ts, -, hsent⟩ := messageChannel_sends
    (fun channel => if channel.state = .initial then .ackClose else .close)
      "failed to finish channel"
    h (.inl rfl) message hid (by rw [if_pos hinitial, hinitial]; rfl)
  rw [if_pos hinitial] at hsent
  exact ⟨hval, channel, ts, message, hid, hsent⟩

end Session

end

end XprcServer
