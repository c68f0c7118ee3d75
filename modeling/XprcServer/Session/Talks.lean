import XprcServer.Session.Answers

/-!
# What is said on a channel

Where nothing fails a command that completes at once says a list of messages on its channel, and
nothing else happens in the session.

* `Says` : what was said between two states, with `Says.append` to go on;
* `Says.wire`, `Says.aside` : what the client gets, and what stays as it was;
* `Tells` : programs that say messages, and how they are composed;
* `Session.confirmChannel_tells`, `Session.continueChannel_tells`, `Session.closeChannel_tells` :
  the messages themselves.
-/

namespace XprcServer

open Lib

/-- A message on a channel: its kind and its text -/
abbrev Message := ChannelAction × Option (List UInt8)

/-- The messages were said on a channel, each at some time, and nothing else happened. -/
def Says {μ : Type} (id : ChannelId) : List Message → World μ → World μ → Prop
  | [], w, w' => w.Ticks w'
  | (action, message) :: messages, w, w' => ∃ channel ts, w.channels.lookup id = some channel ∧
      Says id messages (w.sent id action (channelLine channel action ts message)) w'

/-- What a conversation on one channel leaves alone -/
structure World.Aside {μ : Type} (id : ChannelId) (w w' : World μ) : Prop where
  env : w'.env = w.env
  tick : w.tick ≤ w'.tick
  depth : w'.depth = w.depth
  reference : w'.referenceMillis = w.referenceMillis
  configs : w'.configs = w.configs
  closing : w'.closing = w.closing
  memory : w'.memory = w.memory
  others : ∀ id', id' ≠ id → w'.channels.lookup id' = w.channels.lookup id'

variable {μ : Type} {w w' w'' : World μ} {id : ChannelId} {channel : Channel}
  {action : ChannelAction} {message : Option (List UInt8)} {messages more : List Message}

theorem World.Aside.trans (h : w.Aside id w') (h' : w'.Aside id w'') : w.Aside id w'' where
  env := h'.env.trans h.env
  tick := Nat.le_trans h.tick h'.tick
  depth := h'.depth.trans h.depth
  reference := h'.reference.trans h.reference
  configs := h'.configs.trans h.configs
  closing := h'.closing.trans h.closing
  memory := h'.memory.trans h.memory
  others id' hne := (h'.others id' hne).trans (h.others id' hne)

theorem World.Ticks.aside (h : w.Ticks w') (id : ChannelId) : w.Aside id w' := by
  obtain ⟨n, hn, rfl⟩ := h
  exact ⟨rfl, hn, rfl, rfl, rfl, rfl, rfl, fun _ _ => rfl⟩

theorem World.sent_aside (w : World μ) (id : ChannelId) (action : ChannelAction)
    (line : List UInt8) :
    w.Aside id (w.sent id action line) :=
  ⟨rfl, Nat.le_refl _, rfl, rfl, rfl, rfl, rfl, fun _ hne =>
    ChannelsTable.lookup_modify_of_ne hne⟩

namespace Says

theorem of_ticks (ht : w.Ticks w') (h : Says id messages w' w'') : Says id messages w w'' := by
  induction messages generalizing w w' with
  | nil =>
    change w.Ticks w''
    exact IsTrans.trans _ _ _ ht h
  | cons m messages ih =>
    obtain ⟨n, hn, rfl⟩ := ht
    obtain ⟨channel, ts, hid, hrest⟩ := h
    exact ⟨channel, ts, hid, ih ⟨n, hn, rfl⟩ hrest⟩

theorem append (h : Says id messages w w') (h' : Says id more w' w'') :
    Says id (messages ++ more) w w'' := by
  induction messages generalizing w with
  | nil => exact h'.of_ticks h
  | cons m messages ih =>
    obtain ⟨channel, ts, hid, hrest⟩ := h
    exact ⟨channel, ts, hid, ih hrest⟩

/-- A single message -/
theorem single {ts : ℤ} (hid : w.channels.lookup id = some channel)
    (h : (w.sent id action (channelLine channel action ts message)).Ticks w') :
    Says id [(action, message)] w w' := ⟨channel, ts, hid, h⟩

theorem of_told (h : Told id action w w') : ∃ message, Says id [(action, message)] w w' := by
  obtain ⟨channel, ts, message, hid, hsent⟩ := h
  exact ⟨message, single hid hsent⟩

/-- Nothing happens but on the channel. -/
theorem aside (h : Says id messages w w') : w.Aside id w' := by
  induction messages generalizing w with
  | nil => exact World.Ticks.aside h id
  | cons m messages ih =>
    obtain ⟨channel, ts, hid, hrest⟩ := h
    exact (w.sent_aside id m.1 _).trans (ih hrest)

theorem obliging (h : Says id messages w w') (hw : w.Obliging) : w'.Obliging := by
  induction messages generalizing w with
  | nil => exact hw.ticks h
  | cons m messages ih =>
    obtain ⟨channel, ts, hid, hrest⟩ := h
    exact ih hrest (hw.sent _)

/-- The state of the channel is the one that the last message leaves. -/
theorem lookup (h : Says id messages w w') (hid : w.channels.lookup id = some channel) :
    w'.channels.lookup id = some { channel with
      state := messages.foldl (fun _ m => m.1.nextState) channel.state } := by
  induction messages generalizing w channel with
  | nil => rw [World.Ticks.channels h, hid, List.foldl_nil]
  | cons m messages ih =>
    obtain ⟨channel', ts, -, hrest⟩ := h
    exact ih hrest (World.sent_lookup hid _)

/-- The client gets one line for each message, in the name of the channel. -/
theorem wire (h : Says id messages w w') (hid : w.channels.lookup id = some channel) :
    ∃ lines, w'.wire = w.wire ++ lines ∧ List.Forall₂ (fun m line => ∃ c ts, c.id = channel.id ∧
      line = channelLine c m.1 ts m.2) messages lines := by
  induction messages generalizing w channel with
  | nil =>
    obtain ⟨n, -, rfl⟩ := h
    exact ⟨[], (List.append_nil _).symm, .nil⟩
  | cons m messages ih =>
    obtain ⟨channel', ts, hid', hrest⟩ := h
    obtain rfl : channel = channel' := Option.some.inj (hid.symm.trans hid')
    obtain ⟨lines, hwire, hlines⟩ := ih hrest (World.sent_lookup hid _)
    exact ⟨_ :: lines, hwire.trans (List.append_assoc ..), .cons ⟨channel, ts, rfl, rfl⟩ hlines⟩

end Says

/-- A message that leaves the channel open -/
def Message.Continues (m : Message) : Prop := m.1.nextState = .confirmed

/-- A conversation of which the last message, and no other one, closes the channel -/
def Closing (messages : List Message) : Prop :=
  ∃ front last, messages = front ++ [last] ∧ (∀ m ∈ front, Message.Continues m) ∧
    last.1.nextState = .closed

theorem Message.continues_single (action : ChannelAction) (message : Option (List UInt8))
    (h : action.nextState = .confirmed) :
    ∀ m ∈ [(action, message)], Message.Continues m := List.forall_mem_singleton.2 h

theorem Closing.single (h : action.nextState = .closed) : Closing [(action, message)] :=
  ⟨[], _, rfl, fun _ hm => absurd hm List.not_mem_nil, h⟩

theorem Closing.behind {front : List Message} (h : Closing messages)
    (hfront : ∀ m ∈ front, Message.Continues m) : Closing (front ++ messages) := by
  obtain ⟨before, last, rfl, hbefore, hlast⟩ := h
  exact ⟨front ++ before, last, (List.append_assoc ..).symm,
    List.forall_mem_append.2 ⟨hfront, hbefore⟩, hlast⟩

/-- The channel is open, and was confirmed. -/
def World.Confirmed (id : ChannelId) (w : World μ) : Prop :=
  ∃ channel, w.channels.lookup id = some channel ∧ channel.state = .confirmed

theorem Says.confirmed (h : Says id messages w w') (hmessages : ∀ m ∈ messages, m.Continues)
    (hw : w.Confirmed id) : w'.Confirmed id := by
  induction messages generalizing w with
  | nil =>
    obtain ⟨channel, hid, hstate⟩ := hw
    exact ⟨channel, World.Ticks.channels h ▸ hid, hstate⟩
  | cons m messages ih =>
    rw [List.forall_mem_cons] at hmessages
    obtain ⟨channel, ts, hid, hrest⟩ := h
    exact ih hrest hmessages.2 ⟨_, World.sent_lookup hid _, hmessages.1⟩

/-- A first message confirms the channel. -/
theorem Says.confirms (h : Says id [(action, message)] w w')
    (hnext : action.nextState = .confirmed) :
    w'.Confirmed id := by
  obtain ⟨channel, ts, hid, hrest⟩ := h
  exact ⟨_, World.Ticks.channels hrest ▸ World.sent_lookup hid _, hnext⟩

/-- The program says the messages and returns `a`. -/
def Tells {α : Type} (p : M μ α) (id : ChannelId) (w : World μ) (messages : List Message)
    (a : α) : Prop :=
  Ends p w fun r w' => r = a ∧ Says id messages w w'

namespace Tells

variable {α β : Type} {p : M μ α} {f : α → M μ β} {a : α} {b : β}

theorem of_gives (h : Gives p w a) : Tells p id w [] a := h

theorem pure (a : α) (w : World μ) : Tells (Pure.pure a) id w [] a := of_gives (.pure a w)

theorem bind (hp : Tells p id w messages a)
    (hf : ∀ w', Says id messages w w' → Tells (f a) id w' more b) :
    Tells (p >>= f) id w (messages ++ more) b := by
  refine Ends.andThen hp ?_
  rintro _ w' ⟨rfl, hspoke⟩
  obtain ⟨hval, hmore⟩ := hf w' hspoke
  exact ⟨hval, hspoke.append hmore⟩

/-- What comes before the messages takes time only. -/
theorem after (hp : Gives p w a) (hf : ∀ w', w.Ticks w' → Tells (f a) id w' messages b) :
    Tells (p >>= f) id w messages b :=
  (of_gives hp).bind hf

end Tells

namespace Session

/-- A message that is allowed is said. -/
theorem messageChannel_tells (kind : Channel → ChannelAction) (failure : String) (h : w.Obliging)
    (message : Option (List UInt8)) (hid : w.channels.lookup id = some channel)
    (hallowed : (kind channel).forbidden channel.state = false) :
    Tells (messageChannel kind failure id currentTimeReference message) id w
      [(kind channel, message)] .none := by
  obtain ⟨herr, ts, -, hsent⟩ := messageChannel_sends kind failure h (.inl rfl) message hid hallowed
  exact ⟨herr, .single hid hsent⟩

theorem confirmChannel_tells (h : w.Obliging) (message : Option (List UInt8))
    (hid : w.channels.lookup id = some channel) (hinitial : channel.state = .initial) :
    Tells (confirmChannel id currentTimeReference message) id w [(.ackContinue, message)] .none :=
  messageChannel_tells _ _ h message hid (by rw [hinitial]; rfl)

theorem continueChannel_tells (h : w.Obliging) (message : Option (List UInt8))
    (hw : w.Confirmed id) :
    Tells (continueChannel id currentTimeReference message) id w [(.continues, message)] .none := by
  obtain ⟨channel, hid, hconfirmed⟩ := hw
  exact messageChannel_tells _ _ h message hid (by rw [hconfirmed]; rfl)

theorem closeChannel_tells (h : w.Obliging) (message : Option (List UInt8)) (hw : w.Confirmed id) :
    Tells (finishChannel id currentTimeReference message) id w [(.close, message)] .none := by
  obtain ⟨channel, hid, hconfirmed⟩ := hw
  have hkind : (if channel.state = .initial then ChannelAction.ackClose else .close) = .close := by
    rw [hconfirmed]
    rfl
  have htells := messageChannel_tells
    (fun channel => if channel.state = .initial then .ackClose else .close)
      "failed to finish channel" h
    message hid (by rw [hkind, hconfirmed]; rfl)
  rw [hkind] at htells
  exact htells

end Session

end XprcServer
