import Mathlib.Data.List.ProdSigma
import Mathlib.Data.List.FinRange
import XprcServer.Roster.Runs

/-!
# The destruction of a session

`destroy_session` walks over the places of the channels table, terminates the commands it finds, if
they still run, and destroys them.  What refers to a command is gone when the walk has passed its
channel, and it does not come back (`Walked`).

* `Walked.visit` : one place;
* `walked_destroyChannelsTable` : the whole table;
* `destroySession_reserved` : a proxy that X-Plane has refused stays reserved;
* `destroySession_cleans` : what `destroy_session` leaves behind after a run.
-/

namespace XprcServer

namespace Roster

variable {V : Type} {P P' : ChannelId → Prop} {s s' : Roster V} {ref : ℕ} {id id' : ChannelId}

/-! ### Places -/

/-- The place of a channel in the table: the sub-table, and its index there -/
abbrev Place : Type := Fin channelsNumSubtables × Fin channelsSegment

/-- The channel at a place is the one of the identifier, in any table. -/
def Serves (place : Place) (id : ChannelId) : Prop :=
  ∀ table : ChannelsTable,
    ((table.subtables place.1).bind fun sub => sub.channels place.2) = table.lookup id

/-- No two places are the same. -/
theorem Serves.inj {place place' : Place} (h : Serves place id) (h' : Serves place' id) :
    place = place' := by
  -- a table with nothing but a channel at the first place
  let table : ChannelsTable :=
    ⟨false, fun i => if i = place.1 then
      some ⟨fun j => if j = place.2 then some ⟨id, .closed, false, none, none⟩ else none⟩ else none⟩
  have hsame := (h table).trans (h' table).symm
  by_contra hne
  have hmissing : ((table.subtables place'.1).bind fun sub => sub.channels place'.2) = none := by
    by_cases hi : place'.1 = place.1
    · have hj : place'.2 ≠ place.2 := fun hj => hne (Prod.ext hi.symm hj.symm)
      simp [table, hi, hj]
    · simp [table, hi]
  rw [hmissing] at hsame
  simp [table] at hsame

/-- The places of which one serves the identifier. -/
def Ahead (places : List Place) (id : ChannelId) : Prop := ∃ place ∈ places, Serves place id

/-- The command on a channel -/
def refAt (s : Roster V) (id : ChannelId) : Option ℕ :=
  (s.port.channels.lookup id).bind Channel.commandRef

theorem refAt_eq_some : s.refAt id = some ref ↔
    ∃ channel, s.port.channels.lookup id = some channel ∧ channel.commandRef = some ref :=
  Option.bind_eq_some_iff

/-- Places are the same in all tables. -/
theorem Serves.refAt {place : Place} (h : Serves place id) (h' : Serves place id') (s : Roster V) :
    s.refAt id' = s.refAt id := by
  unfold Roster.refAt
  rw [← h, ← h']

/-- A command is on one channel only. -/
theorem InOrder.refAt_inj (h : InOrder P s) (href : s.refAt id = some ref)
    (href' : s.refAt id' = some ref) :
    id = id' := by
  obtain ⟨channel, hid, hr⟩ := refAt_eq_some.1 href
  obtain ⟨channel', hid', hr'⟩ := refAt_eq_some.1 href'
  exact h.distinct id id' channel channel' ref hid hid' hr hr'

/-- No step of a command changes which commands the channels have. -/
theorem Acts.refAt (h : Acts ref id s s') (id' : ChannelId) : s'.refAt id' = s.refAt id' := by
  have hstill : ∀ found : Option Channel,
      found.bind Channel.commandRef = (found.map Channel.still).bind Channel.commandRef := by
    intro found
    rw [Option.bind_map]
    rfl
  unfold Roster.refAt
  rw [hstill (s'.port.channels.lookup id')]
  rcases h.outcome with ⟨hchannels, -⟩ | ⟨hchannels, -⟩
  · rw [hchannels id', ← hstill]
  · rw [hchannels id', ← hstill]
    by_cases hne : id' = id
    · rw [hne, ChannelsTable.lookup_modify_self, Option.bind_map]
      rfl
    · rw [ChannelsTable.lookup_modify_of_ne hne]

/-! ### One place -/

/-- Channels whose commands nothing refers to any more need not be looked at. -/
theorem InOrder.narrow (h : InOrder P s) (hP : ∀ id, P' id → P id)
    (hcleared : ∀ id ref, P id → ¬ P' id → s.refAt id = some ref → s.Clear ref) : InOrder P' s := by
  classical
  refine h.change hP rfl rfl
    (fun _ channel hid => ⟨channel, hid, rfl, rfl, rfl, fun hopen => hopen⟩)
    (fun id channel ref hid hfound href hopen hrents => ?_) (fun _ _ _ hclear => hclear)
    ⟨none, reservesFor_of_eq rfl, fun _ hr => ?_⟩
  · by_cases hid' : P' id
    · exact .inl ⟨hid', hrents, channel, hfound, href, hopen⟩
    · exact .inr ⟨hcleared id ref hid hid' (refAt_eq_some.2 ⟨channel, hfound, href⟩),
        fun hid => absurd hid hid'⟩
  · cases hr

/-- The session `s` while it is being destroyed, when the walk has to visit `places` yet: the
commands of the channels ahead are in order, nothing refers to the others, and these have been
destroyed. -/
structure Walked (places : List Place) (s : Roster V) (d : Destruction V) : Prop where
  inOrder : InOrder (Ahead places) d.roster
  session : d.roster.session = s.session
  created : d.roster.created = s.created
  refAt : ∀ id, d.roster.refAt id = s.refAt id
  ahead : ∀ id ref, Ahead places id → s.refAt id = some ref → d.calls.count (some ref) = 0
  behind : ∀ id ref, ¬ Ahead places id → s.refAt id = some ref → d.calls.count (some ref) = 1

/-- What is done at a place. -/
def visit (u : ChannelId → Surroundings) (place : Place) (d : Destruction V) : Destruction V :=
  match (d.roster.port.channels.subtables place.1).bind fun sub => sub.channels place.2 with
  | none => d
  | some channel => destroySessionChannel (u channel.id) channel d

/-- The command of the channel is terminated, if it still runs. -/
theorem InOrder.ended (h : InOrder P s) (u : Surroundings) {channel : Channel} (hid : P id)
    (hfound : s.port.channels.lookup id = some channel) :
    ∃ s', (if channel.destructionRequested then s else s.terminate u channel.commandRef) = s' ∧
      InOrder P s' ∧ s'.session = s.session ∧ s'.created = s.created ∧
      (∀ id', s'.refAt id' = s.refAt id') ∧
      ∀ ref, channel.commandRef = some ref → s'.Clear ref := by
  refine ⟨_, rfl, ?_⟩
  split_ifs with hend
  · -- the command has ended before, and nothing has referred to it since
    refine ⟨h, rfl, rfl, fun _ => rfl, fun ref href => ?_⟩
    refine h.clear ref (h.known id channel ref hfound href).1 fun id' channel' _ hfound' href' => ?_
    obtain rfl := h.distinct id id' channel channel' ref hfound hfound' href href'
    rwa [Option.some.inj (hfound'.symm.trans hfound)]
  · have hopen : channel.destructionRequested = false := by simpa using hend
    cases href : channel.commandRef with
    | none => exact ⟨h, rfl, rfl, fun _ => rfl, fun ref hr => nomatch hr⟩
    | some ref =>
      obtain ⟨t, v, htenant⟩ := h.tenants id channel ref hid hfound href hopen
      obtain ⟨hacts, hclear⟩ := htenant.terminate u
      refine ⟨h.acts hacts hid hfound href hopen, hacts.session, hacts.created,
        hacts.refAt, fun r hr => ?_⟩
      rwa [← Option.some.inj hr]

theorem Walked.advance {place : Place} {places : List Place} {d d' : Destruction V}
    (h : Walked (place :: places) s d) (hserves : Serves place id) (hnew : place ∉ places)
    (horder : InOrder (Ahead places) d'.roster) (hsession : d'.roster.session = d.roster.session)
    (hcreated : d'.roster.created = d.roster.created)
    (hrefAt : ∀ id', d'.roster.refAt id' = d.roster.refAt id')
    (hcalls : ∀ ref, d'.calls.count (some ref) =
      d.calls.count (some ref) + if s.refAt id = some ref then 1 else 0) : Walked places s d' := by
  have hinj : ∀ {id' ref}, s.refAt id = some ref → s.refAt id' = some ref → id = id' := by
    intro id' ref href href'
    rw [← h.refAt] at href href'
    exact h.inOrder.refAt_inj href href'
  refine ⟨horder, hsession.trans h.session, hcreated.trans h.created,
    fun id' => (hrefAt id').trans (h.refAt id'), fun id' ref hin href => ?_,
      fun id' ref hout href => ?_⟩
  · -- a channel that is ahead still is another one, and so is its command
    obtain ⟨place', hmem, hserves'⟩ := hin
    have hne : s.refAt id ≠ some ref := by
      intro href'
      obtain rfl := hinj href' href
      obtain rfl := hserves.inj hserves'
      exact hnew hmem
    rw [hcalls, if_neg hne]
    exact h.ahead id' ref ⟨place', List.mem_cons_of_mem place hmem, hserves'⟩ href
  · -- a channel that was passed is the one of this place, or it was passed before
    by_cases hid : id = id'
    · subst hid
      rw [hcalls, if_pos href, h.ahead id ref ⟨place, List.mem_cons_self, hserves⟩ href]
    · have hout' : ¬ Ahead (place :: places) id' := by
        rintro ⟨place', hmem, hserves'⟩
        rcases List.mem_cons.1 hmem with rfl | hmem
        · exact hid (hinj ((hserves.refAt hserves' s).symm.trans href) href)
        · exact hout ⟨place', hmem, hserves'⟩
      rw [hcalls, if_neg fun href' => hid (hinj href' href)]
      exact h.behind id' ref hout' href

/-- **One place** of the table. -/
theorem Walked.visit {place : Place} {places : List Place} {d : Destruction V}
    (u : ChannelId → Surroundings)
    (h : Walked (place :: places) s d) (hnew : place ∉ places) :
    Walked places s (visit u place d) := by
  obtain ⟨id, hserves⟩ : ∃ id, Serves place id := ChannelsTable.exists_id place.1 place.2
  have hmore : ∀ id', Ahead places id' → Ahead (place :: places) id' :=
    fun id' ⟨place', hmem, hserves'⟩ =>
    ⟨place', List.mem_cons_of_mem place hmem, hserves'⟩
  -- once the command at the place is clear, the rest of the table is left
  have hnarrow : ∀ {s' : Roster V}, InOrder (Ahead (place :: places)) s' →
      (∀ ref, s'.refAt id = some ref → s'.Clear ref) → InOrder (Ahead places) s' := by
    intro s' hin hclear
    refine hin.narrow hmore fun id' ref hahead hout href => hclear ref ?_
    obtain ⟨place', hmem, hserves'⟩ := hahead
    rcases List.mem_cons.1 hmem with rfl | hmem
    · exact (hserves.refAt hserves' s').symm.trans href
    · exact absurd ⟨place', hmem, hserves'⟩ hout
  have hskip : d.roster.refAt id = none → Walked places s d := by
    intro hnone
    refine h.advance hserves hnew (hnarrow h.inOrder fun ref href => ?_) rfl rfl
      (fun _ => rfl) fun ref => ?_
    · cases hnone.symm.trans href
    · rw [← h.refAt, hnone, if_neg nofun, Nat.add_zero]
  unfold Roster.visit
  rw [hserves]
  cases hfound : d.roster.port.channels.lookup id with
  | none =>
    refine hskip ?_
    rw [Roster.refAt, hfound]
    rfl
  | some channel =>
    have hrefAt : d.roster.refAt id = channel.commandRef := by
      rw [Roster.refAt, hfound]
      rfl
    dsimp only [destroySessionChannel]
    by_cases hdescriptor : channel.command.isNone = true
    · -- a channel without a descriptor has no command either
      rw [if_pos hdescriptor]
      refine hskip (hrefAt.trans ?_)
      cases href : channel.commandRef with
      | none => rfl
      | some ref =>
        have hknown := (h.inOrder.known id channel ref hfound href).2
        exact absurd (Option.isNone_iff_eq_none.1 hdescriptor) hknown
    · rw [if_neg hdescriptor]
      obtain ⟨s', hs', hin, hsession, hcreated, hsame, hclear⟩ :=
        h.inOrder.ended (u channel.id) ⟨place, List.mem_cons_self, hserves⟩ hfound
      rw [hs']
      have hcalls : ∀ ref, (d.calls ++ [channel.commandRef]).count (some ref) =
          d.calls.count (some ref) + if s.refAt id = some ref then 1 else 0 := by
        intro ref
        rw [List.count_append, List.count_singleton, ← h.refAt, hrefAt]
        simp only [beq_iff_eq]
      have hrest := hnarrow hin fun ref href =>
          hclear ref ((hrefAt.symm.trans (hsame id).symm).trans href)
      cases href : channel.commandRef with
      | none =>
        rw [href] at hcalls
        exact h.advance hserves hnew hrest hsession hcreated hsame hcalls
      | some ref =>
        rw [href] at hcalls
        refine h.advance hserves hnew (hrest.destroys fun id' channel' hahead hfound' href' => ?_)
          hsession hcreated hsame hcalls
        -- its channel was passed
        have hrefAt' : s'.refAt id' = some ref := refAt_eq_some.2 ⟨channel', hfound', href'⟩
        obtain rfl := hrest.refAt_inj ((hsame id).trans (hrefAt.trans href)) hrefAt'
        obtain ⟨place', hmem, hserves'⟩ := hahead
        obtain rfl := hserves.inj hserves'
        exact absurd hmem hnew

/-! ### The table -/

theorem walked_foldl (u : ChannelId → Surroundings) {places : List Place} (hnodup : places.Nodup)
    {d : Destruction V} (h : Walked places s d) :
    Walked [] s (places.foldl (fun d place => visit u place d) d) := by
  induction places generalizing d with
  | nil => exact h
  | cons place places ih =>
    obtain ⟨hnew, hrest⟩ := List.nodup_cons.1 hnodup
    exact ih hrest (h.visit u hnew)

theorem destroyChannelsSubtable_eq (u : ChannelId → Surroundings) (i : Fin channelsNumSubtables)
    (list : List (Fin channelsSegment)) (d : Destruction V) :
    destroyChannelsSubtable u i list d =
      (list.map (Prod.mk i)).foldl (fun d place => visit u place d) d := by
  induction list generalizing d with
  | nil => rfl
  | cons j rest ih =>
    rw [destroyChannelsSubtable, List.map_cons, List.foldl_cons]
    unfold visit
    dsimp only
    cases (d.roster.port.channels.subtables i).bind fun sub => sub.channels j with
    | none => exact ih d
    | some channel => exact ih _

theorem destroyChannelsTable_eq (u : ChannelId → Surroundings)
    (list : List (Fin channelsNumSubtables)) (d : Destruction V) :
    destroyChannelsTable u list d =
      (list ×ˢ List.finRange channelsSegment).foldl (fun d place => visit u place d) d := by
  induction list generalizing d with
  | nil => rfl
  | cons i rest ih =>
    rw [destroyChannelsTable, List.product_cons, List.foldl_append, ih, destroyChannelsSubtable_eq]

/-- **The whole table.** -/
theorem walked_destroyChannelsTable (h : InOrder (fun _ => True) s) (u : ChannelId → Surroundings) :
    Walked [] s (destroyChannelsTable u (List.finRange channelsNumSubtables) ⟨s, []⟩) := by
  rw [destroyChannelsTable_eq]
  -- at the start all channels are ahead
  have hall : ∀ id channel, s.port.channels.lookup id = some channel →
      Ahead (List.finRange channelsNumSubtables ×ˢ List.finRange channelsSegment) id := by
    intro id channel hid
    obtain ⟨i, j, hserves⟩ := ChannelsTable.exists_place hid
    exact ⟨(i, j), List.mem_product.2 ⟨List.mem_finRange i, List.mem_finRange j⟩, hserves⟩
  refine walked_foldl u ((List.nodup_finRange _).product (List.nodup_finRange _))
    ⟨h.narrow (fun _ _ => trivial) fun id ref _ hout href => ?_, rfl, rfl, fun _ => rfl,
      fun _ _ _ _ => rfl, fun id ref hout href => ?_⟩
  · obtain ⟨channel, hid, -⟩ := refAt_eq_some.1 href
    exact absurd (hall id channel hid) hout
  · obtain ⟨channel, hid, -⟩ := refAt_eq_some.1 href
    exact absurd (hall id channel hid) hout

/-- The table is freed after the walk.  It is far too large to be computed with. -/
theorem destroySession_cases (u : ChannelId → Surroundings) (s : Roster V) :
    ∃ d, destroyChannelsTable u (List.finRange channelsNumSubtables) ⟨s, []⟩ = d ∧
      s.destroySession u =
        { d with roster := { d.roster with port := { d.roster.port with channels := .empty } } } :=
  ⟨_, rfl, rfl⟩

/-! ### Proxies that were never registered -/

section

variable {b : ℕ} {p : Dataproxy}

/-- No command gives up a proxy that is reserved only. -/
theorem terminate_reserved (u : Surroundings) (commandRef : Option ℕ)
    (hp : s.registry.proxies[b]? = some p)
    (hstate : p.state = .reserved) : (s.terminate u commandRef).registry.proxies[b]? = some p := by
  unfold Roster.terminate
  cases commandRef with
  | none => exact hp
  | some ref =>
    dsimp only
    cases s.commands ref with
    | none => exact hp
    | some command =>
      cases command with
      | drci command => exact Drci.terminate_reserved .none (.locking none) hp hstate
      | _ => exact hp

theorem visit_reserved (u : ChannelId → Surroundings) (place : Place) {d : Destruction V}
    (hp : d.roster.registry.proxies[b]? = some p) (hstate : p.state = .reserved) :
    (visit u place d).roster.registry.proxies[b]? = some p := by
  unfold visit
  cases (d.roster.port.channels.subtables place.1).bind fun sub => sub.channels place.2 with
  | none => exact hp
  | some channel =>
    have hdestroy : ∀ (s : Roster V) commandRef, (s.destroy commandRef).registry = s.registry := by
      intro s commandRef
      cases commandRef <;> rfl
    dsimp only [destroySessionChannel]
    split_ifs
    · exact hp
    · rw [hdestroy]
      exact hp
    · rw [hdestroy]
      exact terminate_reserved _ _ hp hstate

/-- A proxy that was reserved when the session is destroyed stays reserved for its command. -/
theorem destroySession_reserved (u : ChannelId → Surroundings)
    (hp : s.registry.proxies[b]? = some p)
    (hstate : p.state = .reserved) : (s.destroySession u).roster.registry.proxies[b]? = some p := by
  have hfold : ∀ (places : List Place) (d : Destruction V), d.roster.registry.proxies[b]? = some p →
      (places.foldl (fun d place => visit u place d) d).roster.registry.proxies[b]? = some p := by
    intro places
    induction places with
    | nil => exact fun _ hd => hd
    | cons place places ih => exact fun d hd => ih _ (visit_reserved u place hd hstate)
  have hkept := hfold (List.finRange channelsNumSubtables ×ˢ List.finRange channelsSegment)
      ⟨s, []⟩ hp
  obtain ⟨d, hd, hfreed⟩ := destroySession_cases u s
  rw [← destroyChannelsTable_eq, hd] at hkept
  rw [hfreed]
  exact hkept

end

/-! ### What is left behind -/

/-- What the destruction of the session `s` has to do: the commands on its channels are destroyed
once, nothing refers to a command of the session any more, and the session holds no data proxy. -/
structure Cleans (s : Roster V) (d : Destruction V) : Prop where
  calls : ∀ id channel ref, s.port.channels.lookup id = some channel →
  channel.commandRef = some ref →
    d.calls.count (some ref) = 1
  clear : ∀ ref ∈ s.created, d.roster.Clear ref
  disowned : d.roster.Disowned

/-- **`destroy_session`.**  After every run in which X-Plane accepts the datarefs and no creation
loses its command, it destroys each command once, and nothing refers to the session or its commands
any more. -/
theorem destroySession_cleans (h : ((rosterSystem V).restrict Fulfils).Reachable s)
    (u : ChannelId → Surroundings) : Cleans s (s.destroySession u) := by
  have hwalked := walked_destroyChannelsTable (inOrder_reachable h) u
  obtain ⟨d, hd, hfreed⟩ := destroySession_cases u s
  rw [hd] at hwalked
  rw [hfreed]
  have hnone : ∀ id, ¬ Ahead [] id := fun id ⟨_, hmem, _⟩ => List.not_mem_nil hmem
  have hclear : ∀ ref ∈ s.created, d.roster.Clear ref := by
    intro ref href
    rw [← hwalked.created] at href
    exact hwalked.inOrder.clear ref href fun id _ hid => absurd hid (hnone id)
  refine ⟨fun id channel ref hid href => ?_, fun ref href => ?_, fun p hp hheld howner => ?_⟩
  · exact hwalked.behind id ref (hnone id) (refAt_eq_some.2 ⟨channel, hid, href⟩)
  · exact (hclear ref href).aside d.roster.created .empty
  · -- a proxy of the session would be held for one of its commands
    obtain ⟨ref, href, hown⟩ := hwalked.inOrder.owned p hp hheld howner
    rw [hwalked.created] at href
    obtain ⟨b, hb⟩ := List.getElem?_of_mem hp
    exact (hclear ref href).proxies b p hb ⟨hown, hheld⟩

/-! ### One command -/

/-- A session that has done nothing yet -/
def unused : Roster Unit where
  session := 0
  port := ⟨.empty, fun _ => [], []⟩
  xp := ⟨⟨false, false, []⟩, [], []⟩
  registry := .create
  memory := ⟨fun _ => none, [], fun _ => none, [], 0⟩
  handlers := []
  commands := fun _ => none
  references := fun _ => none
  created := []

theorem unused_init : (rosterSystem Unit).init unused := by
  refine ⟨rfl, fun id => ?_, fun p hp => ?_⟩
  · unfold ChannelsTable.lookup
    split_ifs <;> rfl
  · cases hp

theorem unused_fresh (a : ℕ) : unused.Fresh a where
  clear := by
    refine ⟨fun _ t ht => absurd ht List.not_mem_nil, fun _ _ hp => ?_, fun _ hcalls => ?_⟩
    · cases hp
    · obtain ⟨_, hp, -⟩ := hcalls
      cases hp
  commands := rfl
  cmrg := rfl
  created := List.not_mem_nil
  unreferenced _ := nofun
  task := rfl
  unscheduled _ := List.not_mem_nil
  xpcommands := rfl

/-- A DRCI command on the channel 1, with the task 9. -/
def hosting : PortCommand Unit :=
  .drci ⟨0, 1, none, bytes "a", 1, permissionAll, some 9, false, false⟩

/-- The table in which the channel 1 was put -/
def hostingChannels : ChannelsTable :=
  ((putChannel true (some .empty) (some ⟨1, .initial, false, none, none⟩)).bind Prod.snd).getD
    .empty

/-- The session once the command was created at the address 7 -/
def hosted : Roster Unit :=
  (unused.enroll hostingChannels 7 hosting).schedule 7 9 hosting.ties.phase

/-- The session after the first flight loop, in which the proxy can be reserved and X-Plane has the
result `registerDataAccessor` for the dataref -/
def called (registerDataAccessor : Option ℕ) : Roster Unit :=
  hosted.withDesk 7 ((hosted.desk hosting).process 7
    (.drciFlightloop (.locking none) registerDataAccessor .none))

theorem hosted_step : RosterStep unused (.create 7 9 hosting) hosted := by
  have hput : Puts unused.port.channels 1 hostingChannels := ⟨unused_init.2.1 1, true, rfl⟩
  exact .create hput (unused_fresh 7) (unused_fresh 9) (by decide) ⟨rfl, rfl⟩ ⟨rfl, rfl, rfl⟩

theorem called_step (registerDataAccessor : Option ℕ) :
    RosterStep hosted (.task 7 (.drciFlightloop (.locking none) registerDataAccessor .none))
      (called registerDataAccessor) := by
  have ht : 9 ∈ hosted.port.queues hosting.ties.phase := List.mem_singleton.2 rfl
  exact .task ht rfl List.mem_cons_self rfl

/-- X-Plane accepts the dataref. -/
theorem destroySession_cleans_called :
    ∃ s : Roster Unit, s.created = [7] ∧ s.registry.proxies.map Dataproxy.state = [.registered] ∧
      ∀ u, Cleans s (s.destroySession u) := by
  have h₀ : ((rosterSystem Unit).restrict Fulfils).Reachable unused := .start unused_init
  have h₁ := h₀.allowed (.create 7 9 hosting) trivial hosted_step
  have h₂ := h₁.allowed (.task 7 (.drciFlightloop (.locking none) (some 3) .none))
      (fun _ _ _ _ _ => rfl)
    (called_step (some 3))
  exact ⟨_, rfl, by decide, fun u => destroySession_cleans h₂ u⟩

/-- X-Plane does not accept the dataref: the proxy is reserved for the command when that is gone. -/
theorem destroySession_leaves_reserved :
    ∃ s : Roster Unit, (rosterSystem Unit).Reachable s ∧ s.created = [7] ∧ ∀ u,
      (∃ p ∈ (s.destroySession u).roster.registry.proxies, p.HeldBy 7 ∧
        p.ownerSession = some s.session) ∧
        ¬ Cleans s (s.destroySession u) := by
  have h₀ : (rosterSystem Unit).Reachable unused := .start unused_init
  have h₁ := h₀.step _ hosted_step
  have h₂ := h₁.step _ (called_step none)
  refine ⟨_, h₂, rfl, fun u => ?_⟩
  obtain ⟨p, hp, hstate, href, howner⟩ : ∃ p, (called none).registry.proxies[0]? = some p ∧
      p.state = .reserved ∧ p.operationsRef = some 7 ∧ p.ownerSession = some 0 :=
        ⟨_, rfl, rfl, rfl, rfl⟩
  have hkept := destroySession_reserved u hp hstate
  refine ⟨⟨p, List.mem_of_getElem? hkept, ⟨href, .inl hstate⟩, howner⟩, fun hcleans => ?_⟩
  exact (hcleans.clear 7 List.mem_cons_self).proxies 0 p hkept ⟨href, .inl hstate⟩

end Roster

end XprcServer
