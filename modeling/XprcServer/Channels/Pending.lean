import Mathlib.Data.Set.Insert
import XprcServer.Channels.Lookup

/-!
# Channels to be destroyed

`destroy_pending_channels` in `server.c` goes through all places of the table, destroys the commands
of the channels that are marked, and pops these channels.  It holds a pointer to the sub-table it is
in, which `pop_channel` frees along with the last channel; a read through that pointer fails then.

* `Performed` : the channels that are recorded as destroyed are those that `destroy` was called for;
* `destroyPendingChannels_destroys` : every marked channel is destroyed once and removed, and
  nothing else changes.
-/

namespace XprcServer

/-- A place in the table: the sub-table, and the entry in it. -/
abbrev Place := Fin channelsNumSubtables × Fin channelsSegment

namespace ChannelsTable

/-- The channel in a place -/
def found (table : ChannelsTable) (p : Place) : Option Channel :=
  (table.subtables p.1).bind fun sub => sub.channels p.2

/-- `subtable->channels[j]` through a pointer to the sub-table `i`, which may have been freed -/
def readEntry (table : ChannelsTable) (i : Fin channelsNumSubtables) (j : Fin channelsSegment) :
    Access (Option Channel) :=
  (table.subtables i).map fun sub => sub.channels j

/-- Every channel is in the place of its identifier. -/
def Placed (table : ChannelsTable) : Prop :=
  ∀ p channel, table.found p = some channel →
    (channelTableAddress channel.id).toNat = p.1 ∧ (channelSubtableAddress channel.id).toNat = p.2

end ChannelsTable

namespace Pending

variable {σ : Type} (destroy : Command → Option ℕ → σ → ErrorCode × σ)

/-- The table, what commands work on, and the channels whose command was told to destroy itself -/
structure State (σ : Type) where
  table : ChannelsTable
  commands : σ
  destroyed : List Channel

/-- `channel->command->destroy(channel->command_ref)`, if there is a command -/
def destroyCommand (channel : Channel) (s : State σ) : ErrorCode × State σ :=
  match channel.command with
  | none => (.none, s)
  | some command =>
    let (err, commands) := destroy command channel.commandRef s.commands
    (err, { s with commands := commands, destroyed := s.destroyed ++ [channel] })

/-- The inner loop of `destroy_pending_channels` in the sub-table `i`; `false` says that the
function returns. -/
def destroyPendingIn (i : Fin channelsNumSubtables) : List (Fin channelsSegment) → State σ →
    Access (Bool × State σ)
  | [], s => some (true, s)
  | j :: rest, s => do
    match ← s.table.readEntry i j with
    | none => destroyPendingIn i rest s
    | some channel =>
      if ¬ channel.destructionRequested then destroyPendingIn i rest s
      else
        let (err, s) := destroyCommand destroy channel s
        if err ≠ .none then return (false, s)
        else
          match ← popChannel (some s.table) channel.id with
          | (some _, some table) =>
            let s := { s with table := table }
            -- the sub-table might have been removed
            if (table.subtables i).isNone then return (true, s) else destroyPendingIn i rest s
          | _ => return (false, s)

/-- The outer loop of `destroy_pending_channels` -/
def destroyPendingLoop : List (Fin channelsNumSubtables) → State σ → Access (State σ)
  | [], s => some s
  | i :: rest, s =>
    if (s.table.subtables i).isNone then destroyPendingLoop rest s
    else do
      let (goOn, s) ← destroyPendingIn destroy i (List.finRange channelsSegment) s
      if goOn then destroyPendingLoop rest s else return s

/-- `destroy_pending_channels` -/
def destroyPendingChannels (s : State σ) : Access (State σ) :=
  destroyPendingLoop destroy (List.finRange channelsNumSubtables) s

/-! ### The calls -/

/-- What `destroy` makes of `commands` when it is called for the channels one after the other -/
def destroyAll (commands : σ) (channels : List Channel) : σ :=
  channels.foldl (fun commands channel => channel.command.elim commands fun command =>
    (destroy command channel.commandRef commands).2) commands

/-- The calls so far were those for the channels recorded. -/
def Performed (commands : σ) (s : State σ) : Prop :=
  s.commands = destroyAll destroy commands s.destroyed

section

variable {destroy} {commands : σ} {s s' : State σ} {goOn : Bool}

theorem Performed.destroyCommand (h : Performed destroy commands s) (channel : Channel) :
    Performed destroy commands (destroyCommand destroy channel s).2 := by
  unfold Pending.destroyCommand
  cases hcommand : channel.command with
  | none => exact h
  | some command =>
    change (destroy command channel.commandRef s.commands).2 =
      destroyAll destroy commands (s.destroyed ++ [channel])
    have hbefore : s.commands = destroyAll destroy commands s.destroyed := h
    rw [destroyAll, List.foldl_append, List.foldl_cons, List.foldl_nil, hcommand, hbefore]
    rfl

theorem Performed.destroyPendingIn (h : Performed destroy commands s) {i : Fin channelsNumSubtables}
    {js : List (Fin channelsSegment)} (hrun : destroyPendingIn destroy i js s = some (goOn, s')) :
    Performed destroy commands s' := by
  induction js generalizing s with
  | nil =>
    cases hrun
    exact h
  | cons j js ih =>
    rw [Pending.destroyPendingIn, Option.bind_eq_bind, Option.bind_eq_some_iff] at hrun
    obtain ⟨entry, -, hrun⟩ := hrun
    cases entry with
    | none => exact ih h hrun
    | some channel =>
      dsimp only at hrun
      have hcalled := h.destroyCommand channel
      by_cases hmarked : channel.destructionRequested = true
      swap
      · rw [if_pos hmarked] at hrun
        exact ih h hrun
      rw [if_neg (not_not_intro hmarked)] at hrun
      by_cases herr : (Pending.destroyCommand destroy channel s).1 = .none
      swap
      · rw [if_pos herr] at hrun
        cases hrun
        exact hcalled
      rw [if_neg (not_not_intro herr), Option.bind_eq_bind, Option.bind_eq_some_iff] at hrun
      obtain ⟨⟨popped, table⟩, -, hrun⟩ := hrun
      cases popped with
      | none =>
        cases hrun
        exact hcalled
      | some popped =>
        cases table with
        | none =>
          cases hrun
          exact hcalled
        | some table =>
          dsimp only at hrun
          split_ifs at hrun with hgone
          · cases hrun
            exact hcalled
          · exact ih (s := { (Pending.destroyCommand destroy channel s).2 with table := table })
              hcalled hrun

theorem Performed.destroyPendingLoop (h : Performed destroy commands s)
    {is : List (Fin channelsNumSubtables)} (hrun : destroyPendingLoop destroy is s = some s') :
    Performed destroy commands s' := by
  induction is generalizing s with
  | nil =>
    cases hrun
    exact h
  | cons i is ih =>
    rw [Pending.destroyPendingLoop] at hrun
    split_ifs at hrun with hnone
    · exact ih h hrun
    · rw [Option.bind_eq_bind, Option.bind_eq_some_iff] at hrun
      obtain ⟨⟨goOn, s₁⟩, hinner, hrun⟩ := hrun
      have h₁ := h.destroyPendingIn hinner
      dsimp only at hrun
      split_ifs at hrun with hgoOn
      · exact ih h₁ hrun
      · cases hrun
        exact h₁

end

/-! ### What is removed -/

/-- The channel is marked. -/
def Marked (table : ChannelsTable) (p : Place) (channel : Channel) : Prop :=
  table.found p = some channel ∧ channel.destructionRequested = true

/-- The marked channels in the visited places were destroyed and removed, and nothing else was. -/
structure Swept (table : ChannelsTable) (visited : Set Place) (s : State σ) : Prop where
  cleared : ∀ p ∈ visited, ∀ channel, Marked table p channel → s.table.found p = none
  kept : ∀ p, (p ∈ visited → ∀ channel, ¬ Marked table p channel) → s.table.found p = table.found p
  nodup : s.destroyed.Nodup
  destroyed : ∀ channel, channel ∈ s.destroyed ↔
    channel.command ≠ none ∧ ∃ p ∈ visited, Marked table p channel

/-- A channel in its place is popped from there, whatever becomes of the sub-table. -/
theorem pop_place {table : ChannelsTable} {p : Place} {id : ChannelId}
    (hi : (channelTableAddress id).toNat = p.1) (hj : (channelSubtableAddress id).toNat = p.2)
    {channel : Channel} (h : table.found p = some channel) :
    ∃ table', popChannel (some table) id = some (some channel, some table') ∧
      table'.found p = none ∧
      ∀ q, q ≠ p → table'.found q = table.found q := by
  obtain ⟨i, j⟩ := p
  dsimp only at hi hj
  have hr : InRange id := ⟨by rw [hi]; exact i.isLt, by rw [hj]; exact j.isLt⟩
  obtain rfl : (⟨_, hr.1⟩ : Fin channelsNumSubtables) = i := Fin.ext hi
  obtain rfl : (⟨_, hr.2⟩ : Fin channelsSegment) = j := Fin.ext hj
  obtain ⟨sub, hsub, hchannel⟩ := Option.bind_eq_some_iff.1 h
  refine ⟨_, by
    simp only [popChannel, ChannelsTable.read_inRange hr, hsub, ChannelsSubtable.read_inRange hr,
      ChannelsSubtable.write_inRange hr, ChannelsTable.write_inRange hr, hchannel,
      Option.bind_eq_bind, Option.bind_some]
    rfl, ?_, fun q hq => ?_⟩
  · simp only [ChannelsTable.found, Function.update_self]
    rw [ChannelsSubtable.bind_ite_isEmpty]
    exact Function.update_self _ _ _
  · simp only [ChannelsTable.found]
    by_cases hq1 : q.1 = ⟨_, hr.1⟩
    · have hq2 : q.2 ≠ ⟨_, hr.2⟩ := fun hq2 => hq (Prod.ext hq1 hq2)
      rw [hq1, Function.update_self, ChannelsSubtable.bind_ite_isEmpty, hsub, Option.bind_some]
      exact Function.update_of_ne hq2 _ _
    · rw [Function.update_of_ne hq1]

variable {destroy} {table : ChannelsTable} {visited : Set Place} {s : State σ}

theorem Swept.start (table : ChannelsTable) (commands : σ) : Swept table ∅ ⟨table, commands, []⟩ :=
  ⟨fun _ hp => hp.elim, fun _ _ => rfl, List.nodup_nil, fun _ => by simp⟩

theorem Swept.pass (h : Swept table visited s) {passed : Set Place}
    (hpassed : ∀ p ∈ passed, p ∉ visited → ∀ channel, ¬ Marked table p channel) :
    Swept table (visited ∪ passed) s := by
  have hvisited : ∀ p ∈ visited ∪ passed, ∀ channel, Marked table p channel → p ∈ visited := by
    intro p hp channel hmarked
    by_contra hnot
    exact hpassed p (hp.resolve_left hnot) hnot channel hmarked
  refine ⟨fun p hp channel hmarked => h.cleared p (hvisited p hp channel hmarked) channel hmarked,
    fun p hp => h.kept p fun hv => hp (.inl hv), h.nodup, fun channel => ?_⟩
  rw [h.destroyed]
  refine and_congr_right fun _ => ⟨?_, ?_⟩
  · rintro ⟨p, hp, hmarked⟩
    exact ⟨p, .inl hp, hmarked⟩
  · rintro ⟨p, hp, hmarked⟩
    exact ⟨p, hvisited p hp channel hmarked, hmarked⟩

/-- In a sub-table that does not exist there is nothing left to find. -/
theorem Swept.pass_missing (h : Swept table visited s) {i : Fin channelsNumSubtables}
    (hnone : s.table.subtables i = none) {passed : Set Place} (hrow : ∀ p ∈ passed, p.1 = i) :
    Swept table (visited ∪ passed) s := by
  refine h.pass fun p hp hnot channel hmarked => ?_
  have hkept := h.kept p fun hv => absurd hv hnot
  rw [hmarked.1, ChannelsTable.found, hrow p hp, hnone] at hkept
  cases hkept

theorem Swept.remove (h : Swept table visited s) (hplaced : table.Placed) {p : Place}
    (hp : p ∉ visited)
    {channel : Channel} (hmarked : Marked table p channel) {table' : ChannelsTable}
    (hgone : table'.found p = none) (hothers : ∀ q, q ≠ p → table'.found q = s.table.found q)
    (commands : σ) :
    Swept table (visited ∪ {p})
      ⟨table', commands, if channel.command = none then s.destroyed else
        s.destroyed ++ [channel]⟩ := by
  -- a channel is found in one place only
  have hplace : ∀ q, Marked table q channel → q = p := by
    intro q hq
    obtain ⟨hi, hj⟩ := hplaced p channel hmarked.1
    obtain ⟨hi', hj'⟩ := hplaced q channel hq.1
    exact Prod.ext (Fin.ext (hi'.symm.trans hi)) (Fin.ext (hj'.symm.trans hj))
  refine ⟨fun q hq channel' hmarked' => ?_, fun q hq => ?_, ?_, fun channel' => ?_⟩
  · by_cases hqp : q = p
    · rw [hqp, hgone]
    · rw [hothers q hqp]
      exact h.cleared q (hq.resolve_right hqp) channel' hmarked'
  · have hqp : q ≠ p := fun hqp => hq (.inr hqp) channel (hqp ▸ hmarked)
    rw [hothers q hqp]
    exact h.kept q fun hv => hq (.inl hv)
  · dsimp only
    split_ifs
    · exact h.nodup
    · refine List.nodup_append.2 ⟨h.nodup, by simp, fun a ha b hb => ?_⟩
      rintro rfl
      obtain rfl := List.mem_singleton.1 hb
      obtain ⟨-, q, hq, hqmarked⟩ := (h.destroyed a).1 ha
      exact hp (hplace q hqmarked ▸ hq)
  · have hsplit : (channel'.command ≠ none ∧ ∃ q ∈ visited ∪ {p}, Marked table q channel') ↔
        channel' ∈ s.destroyed ∨ channel' = channel ∧ channel.command ≠ none := by
      rw [h.destroyed]
      constructor
      · rintro ⟨hcommand, q, hq | rfl, hqmarked⟩
        · exact .inl ⟨hcommand, q, hq, hqmarked⟩
        · obtain rfl : channel = channel' := Option.some.inj (hmarked.1.symm.trans hqmarked.1)
          exact .inr ⟨rfl, hcommand⟩
      · rintro (⟨hcommand, q, hq, hqmarked⟩ | ⟨rfl, hcommand⟩)
        · exact ⟨hcommand, q, .inl hq, hqmarked⟩
        · exact ⟨hcommand, p, .inr rfl, hmarked⟩
    rw [hsplit]
    dsimp only
    split_ifs with hcommand
    · simp [hcommand]
    · simp [hcommand]

theorem destroyCommand_eq
    (hdestroy : ∀ command ref commands, (destroy command ref commands).1 = .none)
    (channel : Channel) (s : State σ) :
    ∃ commands, destroyCommand destroy channel s = (.none, ⟨s.table, commands,
      if channel.command = none then s.destroyed else s.destroyed ++ [channel]⟩) := by
  unfold destroyCommand
  cases channel.command with
  | none => exact ⟨s.commands, rfl⟩
  | some command =>
    refine ⟨(destroy command channel.commandRef s.commands).2, ?_⟩
    dsimp only
    rw [if_neg (by simp), hdestroy]

/-- **The inner loop** goes through the places of a sub-table, and no further than to its end. -/
theorem destroyPendingIn_sweeps
    (hdestroy : ∀ command ref commands, (destroy command ref commands).1 = .none)
    (hplaced : table.Placed) {i : Fin channelsNumSubtables} {js : List (Fin channelsSegment)}
    (hnodup : js.Nodup) (hnew : ∀ j ∈ js, (i, j) ∉ visited) (h : Swept table visited s)
    (hsub : s.table.subtables i ≠ none) :
    ∃ s', destroyPendingIn destroy i js s = some (true, s') ∧
      Swept table (visited ∪ {p | p.1 = i ∧ p.2 ∈ js}) s' := by
  induction js generalizing visited s with
  | nil => exact ⟨s, rfl, h.pass fun p hp => absurd hp.2 List.not_mem_nil⟩
  | cons j js ih =>
    obtain ⟨hj, hnodup⟩ := List.nodup_cons.1 hnodup
    obtain ⟨sub, hsome⟩ := Option.ne_none_iff_exists'.1 hsub
    have hp := hnew j List.mem_cons_self
    have hsame : table.found (i, j) = sub.channels j := by
      rw [← h.kept (i, j) fun hv => absurd hv hp, ChannelsTable.found, hsome, Option.bind_some]
    have hsets : visited ∪ {(i, j)} ∪ {p | p.1 = i ∧ p.2 ∈ js} = visited ∪
        {p | p.1 = i ∧ p.2 ∈ j :: js} := by
      ext ⟨i', j'⟩
      simp only [Set.mem_union, Set.mem_singleton_iff, Prod.mk.injEq, Set.mem_ofPred_eq,
        List.mem_cons]
      tauto
    have hnew' : ∀ j' ∈ js, (i, j') ∉ visited ∪ {(i, j)} := by
      rintro j' hj' (hv | heq)
      · exact hnew j' (List.mem_cons_of_mem j hj') hv
      · exact hj ((Prod.mk.inj heq).2 ▸ hj')
    rw [destroyPendingIn, ChannelsTable.readEntry, hsome, Option.map_some, Option.bind_eq_bind,
      Option.bind_some]
    have hpass : (∀ channel, ¬ Marked table (i, j) channel) → ∃ s',
        destroyPendingIn destroy i js s =
        some (true, s') ∧ Swept table (visited ∪ {p | p.1 = i ∧ p.2 ∈ j :: js}) s' := by
      intro hnone
      rw [← hsets]
      exact ih hnodup hnew' (h.pass fun p hp _ => by rw [Set.mem_singleton_iff.1 hp]; exact hnone)
        hsub
    cases hchannel : sub.channels j with
    | none =>
      refine hpass fun channel hmarked => ?_
      rw [Marked, hsame, hchannel] at hmarked
      cases hmarked.1
    | some channel =>
      dsimp only
      by_cases hrequested : channel.destructionRequested = true
      swap
      · rw [if_pos hrequested]
        refine hpass fun channel' hmarked => ?_
        obtain ⟨hfound, hrequested'⟩ := hmarked
        rw [hsame, hchannel, Option.some.injEq] at hfound
        exact hrequested (hfound ▸ hrequested')
      have hmarked : Marked table (i, j) channel := ⟨by rw [hsame, hchannel], hrequested⟩
      obtain ⟨hi, hj'⟩ := hplaced (i, j) channel hmarked.1
      have hfound : s.table.found (i, j) = some channel := by
        rw [ChannelsTable.found, hsome, Option.bind_some, hchannel]
      obtain ⟨table', hpop, hgone, hothers⟩ := pop_place hi hj' hfound
      obtain ⟨commands, hcommand⟩ := destroyCommand_eq hdestroy channel s
      have hremoved := h.remove hplaced hp hmarked hgone hothers commands
      rw [if_neg (by simpa using hrequested), hcommand]
      dsimp only
      rw [if_neg (by simp), hpop, Option.bind_eq_bind, Option.bind_some]
      dsimp only
      cases hleft : table'.subtables i with
      | none =>
        rw [if_pos (by simp)]
        refine ⟨_, rfl, ?_⟩
        rw [← hsets]
        exact hremoved.pass_missing hleft fun p hp => hp.1
      | some sub' =>
        rw [if_neg (by simp), ← hsets]
        exact ih hnodup hnew' hremoved (by dsimp only; rw [hleft]; exact Option.some_ne_none sub')

/-- **The outer loop** goes through the sub-tables. -/
theorem destroyPendingLoop_sweeps
    (hdestroy : ∀ command ref commands, (destroy command ref commands).1 = .none)
    (hplaced : table.Placed) {is : List (Fin channelsNumSubtables)} (hnodup : is.Nodup)
    (hnew : ∀ p ∈ visited, p.1 ∉ is) (h : Swept table visited s) :
    ∃ s', destroyPendingLoop destroy is s = some s' ∧
      Swept table (visited ∪ {p | p.1 ∈ is}) s' := by
  induction is generalizing visited s with
  | nil => exact ⟨s, rfl, h.pass fun p hp => absurd hp List.not_mem_nil⟩
  | cons i is ih =>
    obtain ⟨hi, hnodup⟩ := List.nodup_cons.1 hnodup
    have hsets : visited ∪ {p | p.1 = i} ∪ {p | p.1 ∈ is} = visited ∪ {p | p.1 ∈ i :: is} := by
      ext p
      simp only [Set.mem_union, Set.mem_ofPred_eq, List.mem_cons]
      tauto
    have hnew' : ∀ p ∈ visited ∪ {p | p.1 = i}, p.1 ∉ is := by
      rintro p (hv | rfl)
      · exact fun hmem => hnew p hv (List.mem_cons_of_mem i hmem)
      · exact hi
    rw [destroyPendingLoop, ← hsets]
    cases hsub : s.table.subtables i with
    | none =>
      rw [if_pos (by simp)]
      exact ih hnodup hnew' (h.pass_missing hsub fun p hp => hp)
    | some sub =>
      obtain ⟨s', hinner, h'⟩ := destroyPendingIn_sweeps hdestroy hplaced (List.nodup_finRange _)
        (fun j _ hv => hnew (i, j) hv List.mem_cons_self) h (i := i)
        (by rw [hsub]; exact Option.some_ne_none sub)
      have hrow : {p : Place | p.1 = i ∧ p.2 ∈ List.finRange channelsSegment} = {p | p.1 = i} := by
        ext p
        simp only [Set.mem_ofPred_eq, List.mem_finRange, and_true]
      rw [hrow] at h'
      rw [if_neg (by simp), hinner, Option.bind_eq_bind, Option.bind_some]
      exact ih hnodup hnew' h'

variable (destroy) in
/-- **`destroy_pending_channels`** : if the channels are in the places of their identifiers and the
commands can be destroyed, no sub-table is read after it was freed, the marked channels are removed,
every other entry is as it was, and `destroy` is called for the commands of the marked channels, for
each once, and for nothing else. -/
theorem destroyPendingChannels_destroys
    (hdestroy : ∀ command ref commands, (destroy command ref commands).1 = .none)
    (hplaced : table.Placed) (commands : σ) :
    ∃ s', destroyPendingChannels destroy ⟨table, commands, []⟩ = some s' ∧
      (∀ p channel, Marked table p channel → s'.table.found p = none) ∧
      (∀ p, (∀ channel, ¬ Marked table p channel) → s'.table.found p = table.found p) ∧
      s'.destroyed.Nodup ∧
      (∀ channel, channel ∈ s'.destroyed ↔ channel.command ≠ none ∧ ∃ p, Marked table p channel) ∧
      s'.commands = destroyAll destroy commands s'.destroyed := by
  obtain ⟨s', hrun, h⟩ := destroyPendingLoop_sweeps hdestroy hplaced
    (List.nodup_finRange channelsNumSubtables) (fun _ hv => hv.elim) (Swept.start table commands)
  have hall : ∀ p : Place, p ∈ (∅ ∪ {p | p.1 ∈ List.finRange channelsNumSubtables} : Set Place) :=
    fun p => .inr (List.mem_finRange p.1)
  refine ⟨s', hrun, fun p channel => h.cleared p (hall p) channel, fun p hp => h.kept p fun _ => hp,
    h.nodup, fun channel => ?_, ?_⟩
  swap
  · exact Performed.destroyPendingLoop (s := ⟨table, commands, []⟩) rfl hrun
  rw [h.destroyed]
  refine and_congr_right fun _ => ⟨?_, ?_⟩
  · rintro ⟨p, -, hmarked⟩
    exact ⟨p, hmarked⟩
  · rintro ⟨p, hmarked⟩
    exact ⟨p, hall p, hmarked⟩

/-- Two channels of a sub-table that are marked, and one that is not -/
def crowded : ChannelsTable where
  destructionPending := false
  subtables i :=
    if i.val = 1 then
      some ⟨fun j =>
        if j.val = 0 then some ⟨64, .closed, true, some .cmhd, some 1⟩
        else if j.val = 1 then some ⟨65, .closed, true, some .cmtr, some 2⟩
        else if j.val = 2 then some ⟨66, .confirmed, false, some .cmrg, some 3⟩
        else none⟩
    else none

/-- The commands get their calls, which is recorded here, and the third channel stays. -/
theorem destroyPendingChannels_destroys_crowded :
    ∃ s', destroyPendingChannels (fun _ ref refs => (.none, refs ++ [ref])) ⟨crowded, [], []⟩ =
        some s' ∧
      s'.destroyed.Nodup ∧
      ⟨64, .closed, true, some .cmhd, some 1⟩ ∈ s'.destroyed ∧
      ⟨65, .closed, true, some .cmtr, some 2⟩ ∈ s'.destroyed ∧
      s'.commands = destroyAll (fun _ ref refs => (.none, refs ++ [ref])) [] s'.destroyed ∧
      s'.table.found (⟨1, by decide⟩, ⟨2, by decide⟩) =
        some ⟨66, .confirmed, false, some .cmrg, some 3⟩ := by
  have hplaced : crowded.Placed := by
    intro p channel h
    unfold ChannelsTable.found crowded at h
    dsimp only at h
    split_ifs at h with hi
    · dsimp only [Option.bind_some] at h
      split_ifs at h with h0 h1 h2
      all_goals
        cases h
        refine ⟨hi.symm, ?_⟩
      · exact h0.symm
      · exact h1.symm
      · exact h2.symm
    · cases h
  obtain ⟨s', hrun, -, hkept, hnodup, hdestroyed, hcommands⟩ :=
    destroyPendingChannels_destroys (fun _ ref (refs : List (Option ℕ)) => (.none, refs ++ [ref]))
      (fun _ _ _ => rfl) hplaced []
  refine ⟨s', hrun, hnodup, ?_, ?_, hcommands, ?_⟩
  · exact (hdestroyed _).2 ⟨by simp, (⟨1, by decide⟩, ⟨0, by decide⟩), rfl, rfl⟩
  · exact (hdestroyed _).2 ⟨by simp, (⟨1, by decide⟩, ⟨1, by decide⟩), rfl, rfl⟩
  · rw [hkept]
    · rfl
    · rintro channel ⟨hfound, hmarked⟩
      cases hfound
      cases hmarked

end Pending

end XprcServer
