import XprcServer.Channels.Codec
import XprcServer.Channels.Lookup
import XprcServer.Lib.Refinement

/-!
# The channels table is a finite map

Whatever is done to a channels table with identifiers in range, it answers as a map from identifiers
to channels does (`ChannelMap`), and a sub-table is allocated exactly while it holds a channel
(`ChannelsTable.Tight`).

* `TableOp.perform_stands` : one operation;
* `channelsTable_refines_map` : any sequence of operations on a fresh table, together with the codec
  of the identifiers.
-/

namespace XprcServer

open Lib

/-! ### Operations -/

/-- A call of one of the functions on the table. -/
inductive TableOp where
  | put (channel : Channel)
  | get (id : ChannelId)
  | has (id : ChannelId)
  | pop (id : ChannelId)
  | requestDestruction (id : ChannelId)

/-- The identifier whose addresses are accessed. -/
def TableOp.id : TableOp → ChannelId
  | .put channel => channel.id
  | .get id | .has id | .pop id | .requestDestruction id => id

/-- What a call returns. -/
inductive TableAnswer where
  | stored (stored : Bool)
  | channel (channel : Option Channel)
  | present (present : Bool)
  | done
  deriving DecidableEq

/-- A call, with allocations that succeed. -/
def TableOp.perform (table : Option ChannelsTable) :
    TableOp → Access (TableAnswer × Option ChannelsTable)
  | .put channel => do
    let (stored, table) ← putChannel true table (some channel)
    return (.stored stored, table)
  | .get id => do return (.channel (← getChannel table id), table)
  | .has id => do return (.present (← hasChannel table id), table)
  | .pop id => do
    let (channel, table) ← popChannel table id
    return (.channel channel, table)
  | .requestDestruction id => do return (.done, ← requestChannelDestruction table id)

/-- The abstract table: which channel is registered for an identifier. -/
abbrev ChannelMap := ChannelId → Option Channel

/-- What a map answers, and the map afterwards: a channel is put where there is none, popping
removes one entry, and a request for destruction marks the channel. -/
def ChannelMap.reply (map : ChannelMap) : TableOp → TableAnswer × ChannelMap
  | .put channel =>
    if (map channel.id).isSome then (.stored false, map)
    else (.stored true, Function.update map channel.id (some channel))
  | .get id => (.channel (map id), map)
  | .has id => (.present (map id).isSome, map)
  | .pop id => (.channel (map id), Function.update map id none)
  | .requestDestruction id =>
    (.done, Function.update map id
      ((map id).map fun channel => { channel with destructionRequested := true }))

/-! ### Tight tables -/

namespace ChannelsTable

/-- Every allocated sub-table holds a channel. -/
def Tight (table : ChannelsTable) : Prop :=
  ∀ i sub, table.subtables i = some sub → ∃ j, (sub.channels j).isSome

theorem tight_empty : empty.Tight := fun _ _ h => nomatch h

/-- In a tight table a sub-table is allocated iff it holds a channel. -/
theorem Tight.isSome_iff {table : ChannelsTable} (h : table.Tight) (i : Fin channelsNumSubtables) :
    (table.subtables i).isSome ↔
      ∃ j, ((table.subtables i).bind fun sub => sub.channels j).isSome := by
  cases hsub : table.subtables i with
  | none => simp
  | some sub => simpa using h i sub hsub

/-- A sub-table that holds a channel is put in a place, or the place is freed. -/
theorem Tight.update {table : ChannelsTable} (h : table.Tight) {i : Fin channelsNumSubtables}
    {sub : Option ChannelsSubtable} (hsub : ∀ s, sub = some s → ∃ j, (s.channels j).isSome) :
    Tight { table with subtables := Function.update table.subtables i sub } := by
  intro i' s hs
  by_cases hi : i' = i
  · subst hi
    exact hsub s (by simpa using hs)
  · exact h i' s (by simpa [hi] using hs)

theorem Tight.modify {table : ChannelsTable} (h : table.Tight) (id : ChannelId)
    (f : Channel → Channel) : (table.modify id f).Tight := by
  rw [ChannelsTable.modify]
  split_ifs with hr
  · refine h.update fun s hs => ?_
    obtain ⟨sub, hsub, rfl⟩ := Option.map_eq_some_iff.1 hs
    obtain ⟨j, hj⟩ := h _ sub hsub
    refine ⟨j, ?_⟩
    by_cases hplace : j = ⟨_, hr.2⟩
    · subst hplace
      simpa using hj
    · simpa [hplace] using hj
  · exact h

end ChannelsTable

/-! ### One operation -/

section

variable {table : ChannelsTable} {id : ChannelId} {channel : Channel}

theorem putChannel_of_lookup_none (hr : InRange channel.id)
    (hpending : table.destructionPending = false) (hnone : table.lookup channel.id = none) :
    putChannel true (some table) (some channel) = some (true, some { table with
      subtables := Function.update table.subtables ⟨_, hr.1⟩ (some
        ⟨Function.update ((table.subtables ⟨_, hr.1⟩).getD .empty).channels ⟨_, hr.2⟩
          (some channel)⟩) }) := by
  simp only [putChannel, ChannelsTable.read_inRange hr, Option.bind_eq_bind, Option.bind_some,
    hpending, Bool.false_eq_true, if_false, Bool.not_true]
  simp only [ChannelsTable.lookup, hr, ↓reduceDIte] at hnone
  cases hsub : table.subtables ⟨_, hr.1⟩ with
  | some sub =>
    rw [hsub, Option.bind_some] at hnone
    simp [storeChannel, ChannelsSubtable.read_inRange hr, hnone, ChannelsSubtable.write_inRange hr,
      ChannelsTable.write_inRange hr, hpending]
  | none =>
    simp [storeChannel, ChannelsSubtable.read_inRange hr, ChannelsSubtable.write_inRange hr,
      ChannelsTable.write_inRange hr, ChannelsSubtable.empty, hpending]

theorem putChannel_of_lookup_some (hr : InRange channel.id)
    (hsome : (table.lookup channel.id).isSome) (alloc : Bool) :
    putChannel alloc (some table) (some channel) = some (false, some table) := by
  simp only [putChannel, ChannelsTable.read_inRange hr, Option.bind_eq_bind, Option.bind_some]
  simp only [ChannelsTable.lookup, hr, ↓reduceDIte] at hsome
  by_cases hpending : table.destructionPending
  · simp [hpending]
  cases hsub : table.subtables ⟨_, hr.1⟩ with
  | none => simp [hsub] at hsome
  | some sub =>
    rw [hsub, Option.bind_some] at hsome
    obtain ⟨found, hfound⟩ := Option.isSome_iff_exists.1 hsome
    simp [hpending, storeChannel, ChannelsSubtable.read_inRange hr, hfound]

theorem requestChannelDestruction_eq (hr : InRange id) :
    requestChannelDestruction (some table) id = some (some
      (if (table.lookup id).isSome then
        table.modify id fun channel => { channel with destructionRequested := true }
      else table)) := by
  simp only [requestChannelDestruction, getChannel_eq_lookup hr, Option.bind_eq_bind,
    Option.bind_some]
  cases hfound : table.lookup id with
  | none => rfl
  | some found =>
    simp only [ChannelsTable.lookup, hr, ↓reduceDIte] at hfound
    cases hsub : table.subtables ⟨_, hr.1⟩ with
    | none => simp [hsub] at hfound
    | some sub =>
      rw [hsub, Option.bind_some] at hfound
      simp [ChannelsTable.read_inRange hr, hsub, ChannelsSubtable.write_inRange hr,
        ChannelsTable.write_inRange hr, ChannelsTable.modify, hr, hfound]

/-- A sub-table that `pop_channel` has emptied is freed. -/
theorem popChannel_tight (h : table.Tight) (hr : InRange id) {channel : Option Channel}
    {table' : ChannelsTable} (hpop : popChannel (some table) id = some (channel, some table')) :
    table'.Tight := by
  simp only [popChannel, ChannelsTable.read_inRange hr, Option.bind_eq_bind,
    Option.bind_some] at hpop
  cases hsub : table.subtables ⟨_, hr.1⟩ with
  | none =>
    rw [hsub] at hpop
    cases hpop
    exact h
  | some sub =>
    simp only [hsub, ChannelsSubtable.read_inRange hr, ChannelsSubtable.write_inRange hr,
      ChannelsTable.write_inRange hr, Option.bind_some, Option.pure_def, Option.some.injEq,
      Prod.mk.injEq] at hpop
    obtain ⟨-, rfl⟩ := hpop
    refine h.update fun s hs => ?_
    split_ifs at hs with hempty
    cases hs
    simp only [ChannelsSubtable.isEmpty, List.all_eq_true, not_forall, Option.isNone_iff_eq_none]
      at hempty
    obtain ⟨j, -, hj⟩ := hempty
    exact ⟨j, Option.isSome_iff_ne_none.2 hj⟩

theorem popChannel_destructionPending {channel : Option Channel} {table' : ChannelsTable}
    (hr : InRange id) (hpop : popChannel (some table) id = some (channel, some table')) :
    table'.destructionPending = table.destructionPending := by
  simp only [popChannel, ChannelsTable.read_inRange hr, Option.bind_eq_bind,
    Option.bind_some] at hpop
  cases hsub : table.subtables ⟨_, hr.1⟩ with
  | none =>
    rw [hsub] at hpop
    cases hpop
    rfl
  | some sub =>
    simp only [hsub, ChannelsSubtable.read_inRange hr, ChannelsSubtable.write_inRange hr,
      ChannelsTable.write_inRange hr, Option.bind_some, Option.pure_def, Option.some.injEq,
      Prod.mk.injEq] at hpop
    obtain ⟨-, rfl⟩ := hpop
    rfl

/-- The table stands for the map: same entries, no sub-table in vain, and it is not being
destroyed. -/
structure Stands (table : ChannelsTable) (map : ChannelMap) : Prop where
  entries : ∀ id, InRange id → table.lookup id = map id
  tight : table.Tight
  not_pending : table.destructionPending = false

variable {map : ChannelMap}

theorem stands_empty : Stands .empty fun _ => none where
  entries id hr := by simp [ChannelsTable.lookup, hr, ChannelsTable.empty]
  tight := ChannelsTable.tight_empty
  not_pending := rfl

/-- The entries after a change at one identifier. -/
theorem Stands.update_entries {table' : ChannelsTable} (h : Stands table map) {id : ChannelId}
    {entry : Option Channel} (hself : table'.lookup id = entry)
    (hkept : ∀ id', id' ≠ id → table'.lookup id' = table.lookup id') (id' : ChannelId)
    (hr : InRange id') : table'.lookup id' = Function.update map id entry id' := by
  by_cases hne : id' = id
  · subst hne
    rw [hself, Function.update_self]
  · rw [hkept id' hne, h.entries id' hr, Function.update_of_ne hne]

theorem Stands.put (h : Stands table map) (hr : InRange channel.id)
    (hnone : map channel.id = none) :
    ∃ table', putChannel true (some table) (some channel) = some (true, some table') ∧
      Stands table' (Function.update map channel.id (some channel)) := by
  have hput := putChannel_of_lookup_none hr h.not_pending ((h.entries _ hr).trans hnone)
  refine ⟨_, hput, ?_, ?_, h.not_pending⟩
  · rcases putChannel_result hr hput with ⟨-, hself, hkept⟩ | ⟨hfalse, -⟩
    · exact h.update_entries hself hkept
    · cases hfalse
  · refine h.tight.update fun s hs => ?_
    cases hs
    exact ⟨⟨_, hr.2⟩, by simp⟩

theorem Stands.pop (h : Stands table map) (hr : InRange id) :
    ∃ table', popChannel (some table) id = some (map id, some table') ∧
      Stands table' (Function.update map id none) := by
  obtain ⟨table', hpop⟩ : ∃ table', popChannel (some table) id =
    some (table.lookup id, some table') :=
    popChannel_eq_lookup hr
  obtain ⟨hgone, hkept⟩ := popChannel_result hpop
  refine ⟨table', by rw [hpop, h.entries id hr], h.update_entries hgone hkept,
    popChannel_tight h.tight hr hpop, ?_⟩
  rw [popChannel_destructionPending hr hpop, h.not_pending]

theorem Stands.requestDestruction (h : Stands table map) (hr : InRange id) :
    ∃ table', requestChannelDestruction (some table) id = some (some table') ∧
      Stands table' (Function.update map id
        ((map id).map fun channel => { channel with destructionRequested := true })) := by
  refine ⟨_, requestChannelDestruction_eq hr, ?_⟩
  have hid := h.entries id hr
  cases hfound : map id with
  | none =>
    have hmap : Function.update map id none = map := by rw [← hfound, Function.update_eq_self]
    rw [hid, hfound, Option.map_none, hmap]
    exact h
  | some found =>
    rw [hid, hfound]
    simp only [Option.isSome_some, if_true]
    refine ⟨h.update_entries ?_ fun id' hne => ChannelsTable.lookup_modify_of_ne hne,
      h.tight.modify id _, ?_⟩
    · rw [ChannelsTable.lookup_modify_self, hid, hfound]
    · simp [ChannelsTable.modify, hr, h.not_pending]

/-- **One operation has the answer of the map and keeps the relation.** -/
theorem TableOp.perform_stands (op : TableOp) (hr : InRange op.id) (h : Stands table map) :
    ∃ table', op.perform (some table) = some ((map.reply op).1, some table') ∧
      Stands table' (map.reply op).2 := by
  cases op with
  | put channel =>
    have hr : InRange channel.id := hr
    cases hfound : map channel.id with
    | some found =>
      have hsome : (table.lookup channel.id).isSome := by
        rw [h.entries _ hr, hfound]
        rfl
      have hput := putChannel_of_lookup_some hr hsome true
      exact ⟨table, by simp [perform, hput, ChannelMap.reply, hfound],
        by simpa [ChannelMap.reply, hfound] using h⟩
    | none =>
      obtain ⟨table', hput, h'⟩ := h.put hr hfound
      exact ⟨table', by simp [perform, hput, ChannelMap.reply, hfound],
        by simpa [ChannelMap.reply, hfound] using h'⟩
  | get id =>
    have hr : InRange id := hr
    refine ⟨table, ?_, h⟩
    rw [perform, getChannel_eq_lookup hr, h.entries id hr]
    rfl
  | has id =>
    have hr : InRange id := hr
    refine ⟨table, ?_, h⟩
    rw [perform, hasChannel, getChannel_eq_lookup hr, h.entries id hr]
    rfl
  | pop id =>
    obtain ⟨table', hpop, h'⟩ := h.pop (show InRange id from hr)
    exact ⟨table', by rw [perform, hpop]; rfl, h'⟩
  | requestDestruction id =>
    obtain ⟨table', hrequest, h'⟩ := h.requestDestruction (show InRange id from hr)
    exact ⟨table', by rw [perform, hrequest]; rfl, h'⟩

end

/-! ### Sequences of operations -/

/-- **The channels table behaves as a finite map from identifiers to channels.**  Any sequence of
operations with identifiers in range on a fresh table has exactly the answers of the map; afterwards
the table has the entries of the map, putting a registered channel again is refused and changes
nothing, and a sub-table is allocated iff it holds a channel.  Of the names
`string_to_channel_id` accepts no two have one identifier, and `channel_id_to_string` gives each of
them back. -/
theorem channelsTable_refines_map (ops : List TableOp) (hops : ∀ op ∈ ops, InRange op.id) :
    (∃ table,
      performAll (fun table op => TableOp.perform table op) (some .empty) ops =
          some ((replyAll ChannelMap.reply (fun _ => none) ops).1, some table) ∧
        (∀ id, InRange id →
          getChannel (some table) id =
            some ((replyAll ChannelMap.reply (fun _ => none) ops).2 id)) ∧
        (∀ channel, InRange channel.id →
          ((replyAll ChannelMap.reply (fun _ => none) ops).2 channel.id).isSome →
          putChannel true (some table) (some channel) = some (false, some table)) ∧
        ∀ i, (table.subtables i).isSome ↔
          ∃ j, ((table.subtables i).bind fun sub => sub.channels j).isSome) ∧
      (∀ s, stringToChannelId s ≠ badChannelId →
        channelIdToString (stringToChannelId s) = nameOf s) ∧
      ∀ s t, stringToChannelId s ≠ badChannelId → stringToChannelId t ≠ badChannelId →
        stringToChannelId s = stringToChannelId t → nameOf s = nameOf t := by
  refine ⟨?_, fun s => channelIdToString_stringToChannelId,
    fun s t hs _ => nameOf_eq_of_stringToChannelId_eq hs⟩
  have hstep : ∀ (table? : Option ChannelsTable) (map : ChannelMap) (op : TableOp), InRange op.id →
      (∃ table, table? = some table ∧ Stands table map) →
      ∃ table?', op.perform table? = some ((map.reply op).1, table?') ∧
        ∃ table', table?' = some table' ∧ Stands table' (map.reply op).2 := by
    rintro - map op hr ⟨table, rfl, h⟩
    obtain ⟨table', hperform, h'⟩ := TableOp.perform_stands op hr h
    exact ⟨some table', hperform, table', rfl, h'⟩
  obtain ⟨-, hperform, table, rfl, h⟩ :=
    performAll_refines hstep (admissible_of_forall hops) ⟨.empty, rfl, stands_empty⟩
  refine ⟨table, hperform, fun id hr => ?_, fun channel hr hsome => ?_, h.tight.isSome_iff⟩
  · rw [getChannel_eq_lookup hr, h.entries id hr]
  · exact putChannel_of_lookup_some hr (by rwa [h.entries _ hr]) true

theorem channelsTable_refines_map_twice :
    ∃ table, performAll (fun table op => TableOp.perform table op) (some .empty)
        [.put ⟨7542, .initial, false, none, none⟩, .put ⟨7542, .confirmed, false, none, none⟩,
          .pop 7542] =
      some ([.stored true, .stored false, .channel (some ⟨7542, .initial, false, none, none⟩)],
        some table) := by
  obtain ⟨⟨table, hrun, -⟩, -⟩ := channelsTable_refines_map
    [.put ⟨7542, .initial, false, none, none⟩, .put ⟨7542, .confirmed, false, none, none⟩,
      .pop 7542]
    (by decide)
  exact ⟨table, hrun⟩

end XprcServer
