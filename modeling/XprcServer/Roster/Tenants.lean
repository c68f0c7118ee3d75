import XprcServer.Roster.Basic

/-!
# Commands and what refers to them

A command that runs is known to the outside in a few places only, and it knows all of them: its task
is in the schedule or it has none, the data proxies held in its name are its own, and so are the
proxies of X-Plane commands that call it (`Tenant`).  `InOrder` says that every command of the
session either is such a tenant of its channel, or nothing refers to it any more.

* `InOrder.change` : what has to be shown of a step, whatever it is;
* `InOrder.acts`, `InOrder.keeps`, `InOrder.opens` : the same for a step of one command, for one of
  somebody else, and for a creation.
-/

namespace XprcServer

namespace Roster

variable {V : Type} {s s' s'' : Roster V} {ref t : ℕ} {id : ChannelId} {v : Ties}

/-- What the command at `ref` knows of the outside. -/
def ties (s : Roster V) (ref : ℕ) : Option Ties :=
  match s.commands ref with
  | some command => some command.ties
  | none => (s.memory.cmrg ref).map CommandCmrg.ties

/-- The command at `ref` runs on the channel `id`, its task is `t`, and what it knows of the outside
is all that refers to it. -/
structure Tenant (s : Roster V) (ref : ℕ) (id : ChannelId) (t : ℕ) (v : Ties) : Prop where
  ties : s.ties ref = some v
  channelId : v.channelId = id
  reference : ∀ t', s.references t' = some ref ↔ t' = t
  schedules : s.port.Schedules t v.phase v.task
  elsewhere : ∀ phase, phase ≠ v.phase → t ∉ s.port.queues phase
  held : ∀ (b : ℕ) p, s.registry.proxies[b]? = some p → p.HeldBy ref → v.proxy = some b
  own : ∀ a, v.proxy = some a →
    ∃ p, s.registry.proxies[a]? = some p ∧ p.HeldBy ref ∧ p.state = .registered
  calls : ∀ a, s.Calls ref a ↔ v.xpcmd = some a
  drci : ∀ command, s.commands ref = some (.drci command) →
    command.session = s.session ∧ (command.registered = false → command.proxy = none)
  cmrg : s.memory.cmrg ref ≠ none → s.commands ref = none ∧ v.task ≠ none

/-- The command at `ref` runs on the channel `id`. -/
def Rents (s : Roster V) (ref : ℕ) (id : ChannelId) : Prop := ∃ t v, s.Tenant ref id t v

/-! ### What others leave alone -/

theorem Keeps.refl (ref : ℕ) (s : Roster V) : Keeps ref s s :=
  ⟨rfl, rfl, fun _ => Iff.rfl, fun _ _ _ => rfl, fun _ p' hp' hheld => ⟨p', hp', hheld⟩,
    fun _ _ hp _ _ => hp, fun _ => Iff.rfl⟩

theorem Keeps.trans (h : Keeps ref s s') (h' : Keeps ref s' s'') : Keeps ref s s'' where
  commands := h'.commands.trans h.commands
  cmrg := h'.cmrg.trans h.cmrg
  references t := (h'.references t).trans (h.references t)
  queues phase t ht := (h'.queues phase t ((h.references t).2 ht)).trans (h.queues phase t ht)
  held b p'' hp'' hheld := by
    obtain ⟨p', hp', hheld'⟩ := h'.held b p'' hp'' hheld
    exact h.held b p' hp' hheld'
  own b p hp hheld hstate := h'.own b p (h.own b p hp hheld hstate) hheld hstate
  calls a := (h'.calls a).trans (h.calls a)

theorem Keeps.ties (h : Keeps ref s s') : s'.ties ref = s.ties ref := by
  unfold Roster.ties
  rw [h.commands]
  cases s.commands ref with
  | none => exact h.cmrg
  | some command => rfl

theorem Clear.keeps (h : s.Clear ref) (hk : Keeps ref s s') : s'.Clear ref where
  tasks phase t ht hreference := by
    have hreference' := (hk.references t).1 hreference
    refine h.tasks phase t ?_ hreference'
    rw [← List.count_pos_iff, ← hk.queues phase t hreference', List.count_pos_iff]
    exact ht
  proxies b p' hp' hheld := by
    obtain ⟨p, hp, hheld'⟩ := hk.held b p' hp' hheld
    exact h.proxies b p hp hheld'
  xpcommands a hcalls := h.xpcommands a ((hk.calls a).1 hcalls)

theorem Tenant.keeps (h : s.Tenant ref id t v) (hk : Keeps ref s s')
    (hsession : s'.session = s.session) : s'.Tenant ref id t v := by
  have hcount : ∀ phase, (s'.port.queues phase).count t = (s.port.queues phase).count t :=
    fun phase => hk.queues phase t ((h.reference t).2 rfl)
  constructor
  · rw [hk.ties]
    exact h.ties
  · exact h.channelId
  · exact fun t' => (hk.references t').trans (h.reference t')
  · unfold Port.Schedules
    rw [hcount]
    exact h.schedules
  · intro phase hphase
    rw [← List.count_eq_zero, hcount, List.count_eq_zero]
    exact h.elsewhere phase hphase
  · intro b p' hp' hheld
    obtain ⟨p, hp, hheld'⟩ := hk.held b p' hp' hheld
    exact h.held b p hp hheld'
  · intro a ha
    obtain ⟨p, hp, hheld, hstate⟩ := h.own a ha
    exact ⟨p, hk.own a p hp hheld hstate, hheld, hstate⟩
  · exact fun a => (hk.calls a).trans (h.calls a)
  · intro command hcommand
    rw [hk.commands] at hcommand
    rw [hsession]
    exact h.drci command hcommand
  · intro hsome
    rw [hk.commands]
    refine h.cmrg fun hnone => hsome ?_
    have hties := hk.cmrg
    rw [hnone, Option.map_none, Option.map_eq_none_iff] at hties
    exact hties

theorem Rents.keeps (h : s.Rents ref id) (hk : Keeps ref s s') (hsession : s'.session = s.session) :
    s'.Rents ref id := by
  obtain ⟨t, v, ht⟩ := h
  exact ⟨t, v, ht.keeps hk hsession⟩

/-! The table of the channels, and the list of the commands, are no part of what refers to a
command. -/

section

variable (created : List ℕ) (channels : ChannelsTable)

theorem Keeps.aside (h : Keeps ref s s') :
    Keeps ref s { s' with created := created, port := { s'.port with channels := channels } } :=
  ⟨h.commands, h.cmrg, h.references, h.queues, h.held, h.own, h.calls⟩

theorem Clear.aside (h : s.Clear ref) :
    ({ s with created := created, port := { s.port with channels := channels } } :
      Roster V).Clear ref :=
  ⟨h.tasks, h.proxies, h.xpcommands⟩

theorem Tenant.aside (h : s.Tenant ref id t v) :
    ({ s with created := created, port := { s.port with channels := channels } } : Roster V).Tenant
      ref id t v :=
  ⟨h.ties, h.channelId, h.reference, h.schedules, h.elsewhere, h.held, h.own,
    h.calls, h.drci, h.cmrg⟩

end

/-- A tenant that knows nothing any more is not known to anybody. -/
theorem Tenant.clear (h : s.Tenant ref id t v) (htask : v.task = none) (hproxy : v.proxy = none)
    (hxpcmd : v.xpcmd = none) : s.Clear ref where
  tasks phase t' ht' hreference := by
    obtain rfl := (h.reference t').1 hreference
    by_cases hphase : phase = v.phase
    · subst hphase
      exact absurd htask (by rw [h.schedules.of_mem ht']; exact Option.some_ne_none t')
    · exact h.elsewhere phase hphase ht'
  proxies b p hp hheld := by
    have hown := h.held b p hp hheld
    rw [hproxy] at hown
    cases hown
  xpcommands a hcalls := by
    have hown := (h.calls a).1 hcalls
    rw [hxpcmd] at hown
    cases hown

/-! ### The commands of a session -/

/-- The channels have their own commands, and a command on a channel with an identifier in `P` whose
end was not requested is in order.  Nothing refers to the other commands, and nobody but a command
holds a data proxy for the session. -/
structure InOrder (P : ChannelId → Prop) (s : Roster V) : Prop where
  named : ∀ id channel, s.port.channels.lookup id = some channel → channel.id = id
  known : ∀ id channel ref, s.port.channels.lookup id = some channel →
  channel.commandRef = some ref →
    ref ∈ s.created ∧ channel.command ≠ none
  distinct : ∀ id id' channel channel' ref, s.port.channels.lookup id = some channel →
    s.port.channels.lookup id' = some channel' → channel.commandRef = some ref →
    channel'.commandRef = some ref → id = id'
  tenants : ∀ id channel ref, P id → s.port.channels.lookup id = some channel →
    channel.commandRef = some ref → channel.destructionRequested = false → s.Rents ref id
  clear : ∀ ref ∈ s.created, (∀ id channel, P id → s.port.channels.lookup id = some channel →
    channel.commandRef = some ref → channel.destructionRequested = true) → s.Clear ref
  owned : ∀ p ∈ s.registry.proxies, p.state = .reserved ∨ p.state = .registered →
    p.ownerSession = some s.session → ∃ ref ∈ s.created, p.operationsRef = some ref

/-- Between `s` and `s'` a proxy was reserved for the session, if at all, in the name of the command
`ref`. -/
def ReservesFor (ref : Option ℕ) (s s' : Roster V) : Prop :=
  ∀ p' ∈ s'.registry.proxies, p'.state = .reserved ∨ p'.state = .registered →
    p'.ownerSession = some s.session → (∃ r, ref = some r ∧ p'.operationsRef = some r) ∨
      ∃ p ∈ s.registry.proxies, (p.state = .reserved ∨ p.state = .registered) ∧
        p.ownerSession = some s.session ∧ p.operationsRef = p'.operationsRef

theorem reservesFor_of_eq (h : s'.registry = s.registry) : ReservesFor none s s' := by
  intro p' hp' hheld howner
  rw [h] at hp'
  exact .inr ⟨p', hp', hheld, howner, rfl⟩

variable {P P' : ChannelId → Prop}

/-- A step of any kind: no channel is new or gets another command, a tenant stays one or is cleared,
and what was clear stays so. -/
theorem InOrder.change (h : InOrder P s) (hP : ∀ id, P' id → P id)
    (hsession : s'.session = s.session) (hcreated : s'.created = s.created)
    (hchannels : ∀ id channel', s'.port.channels.lookup id = some channel' →
      ∃ channel, s.port.channels.lookup id = some channel ∧ channel'.id = channel.id ∧
        channel'.command = channel.command ∧ channel'.commandRef = channel.commandRef ∧
        (channel'.destructionRequested = false → channel.destructionRequested = false))
    (htenants : ∀ id channel ref, P id → s.port.channels.lookup id = some channel →
      channel.commandRef = some ref → channel.destructionRequested = false → s.Rents ref id →
      (P' id ∧ s'.Rents ref id ∧ ∃ channel', s'.port.channels.lookup id = some channel' ∧
        channel'.commandRef = some ref ∧ channel'.destructionRequested = false) ∨
      (s'.Clear ref ∧ (P' id → ∀ channel', s'.port.channels.lookup id = some channel' →
        channel'.destructionRequested = true)))
    (hclear : ∀ ref ∈ s.created, (∀ id channel, P id → s.port.channels.lookup id = some channel →
      channel.commandRef = some ref → channel.destructionRequested = true) →
        s.Clear ref → s'.Clear ref)
    (howned : ∃ r, ReservesFor r s s' ∧ ∀ ref, r = some ref → ref ∈ s.created) : InOrder P' s' := by
  constructor
  · intro id channel' hid'
    obtain ⟨channel, hid, hkey, -⟩ := hchannels id channel' hid'
    exact hkey.trans (h.named id channel hid)
  · intro id channel' ref hid' href
    obtain ⟨channel, hid, -, hcommand, hsame, -⟩ := hchannels id channel' hid'
    rw [hcreated, hcommand]
    exact h.known id channel ref hid (hsame ▸ href)
  · intro id₁ id₂ channel₁' channel₂' ref hid₁' hid₂' href₁ href₂
    obtain ⟨channel₁, hid₁, -, -, hsame₁, -⟩ := hchannels id₁ channel₁' hid₁'
    obtain ⟨channel₂, hid₂, -, -, hsame₂, -⟩ := hchannels id₂ channel₂' hid₂'
    exact h.distinct id₁ id₂ channel₁ channel₂ ref hid₁ hid₂ (hsame₁ ▸ href₁) (hsame₂ ▸ href₂)
  · intro id channel' ref hid hid' href hopen
    obtain ⟨channel, hfound, -, -, hsame, hend⟩ := hchannels id channel' hid'
    have hrents := h.tenants id channel ref (hP id hid) hfound (hsame ▸ href) (hend hopen)
    rcases htenants id channel ref (hP id hid) hfound (hsame ▸ href) (hend hopen) hrents with
      ⟨-, hstays, -⟩ | ⟨-, hended⟩
    · exact hstays
    · rw [hended hid channel' hid'] at hopen
      cases hopen
  · intro ref href hended
    rw [hcreated] at href
    -- either the command was a tenant before the step, or it was clear
    by_cases hrunning : ∃ id channel, P id ∧ s.port.channels.lookup id = some channel ∧
        channel.commandRef = some ref ∧ channel.destructionRequested = false
    · obtain ⟨id, channel, hid, hfound, hsame, hopen⟩ := hrunning
      have hrents := h.tenants id channel ref hid hfound hsame hopen
      rcases htenants id channel ref hid hfound hsame hopen hrents with
        ⟨hid', -, channel', hfound', hsame', hopen'⟩ | ⟨hclear', -⟩
      · rw [hended id channel' hid' hfound' hsame'] at hopen'
        cases hopen'
      · exact hclear'
    · have hended₀ : ∀ id channel, P id → s.port.channels.lookup id = some channel →
          channel.commandRef = some ref → channel.destructionRequested = true := by
        intro id channel hid hfound hsame
        by_contra hopen
        exact hrunning ⟨id, channel, hid, hfound, hsame, by simpa using hopen⟩
      exact hclear ref href hended₀ (h.clear ref href hended₀)
  · intro p' hp' hheld howner
    obtain ⟨r, hreserves, hr⟩ := howned
    rw [hcreated]
    rw [hsession] at howner
    rcases hreserves p' hp' hheld howner with ⟨ref, href, hown⟩ | ⟨p, hp, hheld', howner', hown⟩
    · exact ⟨ref, hr ref href, hown⟩
    · obtain ⟨ref, href, hfound⟩ := h.owned p hp hheld' howner'
      exact ⟨ref, href, hown ▸ hfound⟩

/-- Somebody else has done something: nothing that concerns the commands. -/
theorem InOrder.keeps (h : InOrder P s) (hsession : s'.session = s.session)
    (hcreated : s'.created = s.created) (hchannels : s.port.channels.Resembles s'.port.channels)
    (hkeeps : ∀ ref ∈ s.created, Keeps ref s s')
    (howned : ReservesFor none s s') : InOrder P s' := by
  refine h.change (fun _ hid => hid) hsession hcreated (fun id channel' hid' => ?_)
    (fun id channel ref hid hfound href hopen hrents => .inl ⟨hid, ?_, ?_⟩)
    (fun ref href _ hclear => hclear.keeps (hkeeps ref href)) ⟨none, howned, fun _ hr => nomatch hr⟩
  · obtain ⟨channel, hid, hstill⟩ := hchannels.exists_channel hid'
    obtain ⟨hkey, -, hend, hcommand, href⟩ := Channel.mk.inj hstill
    exact ⟨channel, hid, hkey, hcommand, href, fun hopen => hend ▸ hopen⟩
  · exact hrents.keeps (hkeeps ref (h.known id channel ref hfound href).1) hsession
  · have hmap := hchannels id
    rw [hfound, Option.map_some] at hmap
    obtain ⟨channel', hid', hstill⟩ := Option.map_eq_some_iff.1 hmap
    obtain ⟨-, -, hend, -, hsame⟩ := Channel.mk.inj hstill
    exact ⟨channel', hid', hsame.trans href, hend.trans hopen⟩

/-- A request for the end of a channel. -/
def mark (channel : Channel) : Channel := { channel with destructionRequested := true }

/-- What the command `ref` does on the channel `id`: it goes on, or it requests the end of its
channel when nothing refers to it any more. -/
structure Acts (ref : ℕ) (id : ChannelId) (s s' : Roster V) : Prop where
  session : s'.session = s.session
  created : s'.created = s.created
  others : ∀ r, r ≠ ref → Keeps r s s'
  owned : ReservesFor (some ref) s s'
  outcome : (s.port.channels.Resembles s'.port.channels ∧ s'.Rents ref id) ∨
    ((s.port.channels.modify id mark).Resembles s'.port.channels ∧ s'.Clear ref)

/-- The channels after what a command did. -/
theorem Acts.channels (h : Acts ref id s s') {id' : ChannelId} {channel' : Channel}
    (hid' : s'.port.channels.lookup id' = some channel') :
    ∃ channel, s.port.channels.lookup id' = some channel ∧ channel'.id = channel.id ∧
      channel'.command = channel.command ∧ channel'.commandRef = channel.commandRef ∧
      (channel'.destructionRequested = false → channel.destructionRequested = false) := by
  rcases h.outcome with ⟨hchannels, -⟩ | ⟨hchannels, -⟩
  · obtain ⟨channel, hid, hstill⟩ := hchannels.exists_channel hid'
    obtain ⟨hkey, -, hend, hcommand, href⟩ := Channel.mk.inj hstill
    exact ⟨channel, hid, hkey, hcommand, href, fun hopen => hend ▸ hopen⟩
  · obtain ⟨channel, hid, hstill⟩ := hchannels.exists_channel hid'
    obtain ⟨hkey, -, hend, hcommand, href⟩ := Channel.mk.inj hstill
    by_cases hne : id' = id
    · subst hne
      rw [ChannelsTable.lookup_modify_self] at hid
      obtain ⟨found, hfound, rfl⟩ := Option.map_eq_some_iff.1 hid
      refine ⟨found, hfound, hkey, hcommand, href, fun hopen => ?_⟩
      rw [hend] at hopen
      cases hopen
    · rw [ChannelsTable.lookup_modify_of_ne hne] at hid
      exact ⟨channel, hid, hkey, hcommand, href, fun hopen => hend ▸ hopen⟩

/-- A step of one command. -/
theorem InOrder.acts (h : InOrder P s) (ha : Acts ref id s s') {channel : Channel} (hP : P id)
    (hfound : s.port.channels.lookup id = some channel) (href : channel.commandRef = some ref)
    (hopen : channel.destructionRequested = false) : InOrder P s' := by
  have hown := (h.known id channel ref hfound href).1
  -- other channels are as before
  have hother : ∀ id' channel₁, id' ≠ id → s.port.channels.lookup id' = some channel₁ →
      ∃ channel', s'.port.channels.lookup id' = some channel' ∧
        channel'.still = channel₁.still := by
    intro id' channel₁ hne hfound₁
    rcases ha.outcome with ⟨hchannels, -⟩ | ⟨hchannels, -⟩
    · have hmap := hchannels id'
      rw [hfound₁, Option.map_some] at hmap
      exact Option.map_eq_some_iff.1 hmap
    · have hmap := hchannels id'
      rw [ChannelsTable.lookup_modify_of_ne hne, hfound₁, Option.map_some] at hmap
      exact Option.map_eq_some_iff.1 hmap
  refine h.change (fun _ hid => hid) ha.session ha.created (fun id' channel' => ha.channels)
    (fun id' channel₁ r hid hfound₁ hr hopen₁ hrents => ?_) (fun r hr hended hclear => ?_)
    ⟨some ref, ha.owned, fun r hr => Option.some.inj hr ▸ hown⟩
  · by_cases hne : id' = id
    · subst hne
      obtain rfl := Option.some.inj (hfound.symm.trans hfound₁)
      obtain rfl := Option.some.inj (href.symm.trans hr)
      rcases ha.outcome with ⟨hchannels, hstays⟩ | ⟨hchannels, hclear⟩
      · have hmap := hchannels id'
        rw [hfound, Option.map_some] at hmap
        obtain ⟨channel', hid', hstill⟩ := Option.map_eq_some_iff.1 hmap
        obtain ⟨-, -, hend, -, hsame⟩ := Channel.mk.inj hstill
        exact .inl ⟨hP, hstays, channel', hid', hsame.trans href, hend.trans hopen⟩
      · refine .inr ⟨hclear, fun _ channel' hid' => ?_⟩
        obtain ⟨found, hmarked, hstill⟩ := hchannels.exists_channel hid'
        rw [ChannelsTable.lookup_modify_self, hfound, Option.map_some] at hmarked
        cases hmarked
        exact (Channel.mk.inj hstill).2.2.1
    · have hne' : r ≠ ref := by
        rintro rfl
        exact hne (h.distinct id' id channel₁ channel r hfound₁ hfound hr href)
      obtain ⟨channel', hid', hstill⟩ := hother id' channel₁ hne hfound₁
      obtain ⟨-, -, hend, -, hsame⟩ := Channel.mk.inj hstill
      exact .inl ⟨hid, hrents.keeps (ha.others r hne') ha.session, channel', hid', hsame.trans hr,
        hend.trans hopen₁⟩
  · by_cases hne : r = ref
    · subst hne
      rw [hended id channel hP hfound href] at hopen
      cases hopen
    · exact hclear.keeps (ha.others r hne)

end Roster

end XprcServer
