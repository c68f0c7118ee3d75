import XprcServer.Channels.Basic

/-!
# The channels table as a map

Seen through `lookup` the two levels of the table are a partial map on the identifiers in range:
`get_channel` reads it, a channel reached through a pointer is changed in place (`modify`), and a
channel that was put is found under its own identifier, with all others unchanged
(`putChannel_result`), until it is popped (`popChannel_result`).
-/

namespace XprcServer

/-- A channel whatever its state is. -/
def Channel.still (channel : Channel) : Channel := { channel with state := .closed }

namespace ChannelsTable

/-- The entry of an identifier. -/
def lookup (table : ChannelsTable) (id : ChannelId) : Option Channel :=
  if h : InRange id then (table.subtables ⟨_, h.1⟩).bind fun sub => sub.channels ⟨_, h.2⟩ else none

/-- The channel registered for `id` is changed in place, through a pointer. -/
def modify (table : ChannelsTable) (id : ChannelId) (f : Channel → Channel) : ChannelsTable :=
  if h : InRange id then
    { table with
      subtables := Function.update table.subtables ⟨_, h.1⟩
        ((table.subtables ⟨_, h.1⟩).map fun sub =>
          ⟨Function.update sub.channels ⟨_, h.2⟩ ((sub.channels ⟨_, h.2⟩).map f)⟩) }
  else table

/-- The channel registered for `id` is freed. -/
def erase (table : ChannelsTable) (id : ChannelId) : ChannelsTable :=
  if h : InRange id then
    { table with
      subtables := Function.update table.subtables ⟨_, h.1⟩
        ((table.subtables ⟨_, h.1⟩).map fun sub =>
          ⟨Function.update sub.channels ⟨_, h.2⟩ none⟩) }
  else table

/-- The same channels, but for their states. -/
def Resembles (table table' : ChannelsTable) : Prop :=
  ∀ id, (table'.lookup id).map Channel.still = (table.lookup id).map Channel.still

/-- The table with one channel. -/
def single (channel : Channel) : ChannelsTable where
  destructionPending := false
  subtables i :=
    if i.val = (channelTableAddress channel.id).toNat then
      some ⟨fun j =>
        if j.val = (channelSubtableAddress channel.id).toNat then some channel else none⟩
    else none

end ChannelsTable

/-- An identifier is determined by its two addresses. -/
theorem channelId_eq_of_addresses {id id' : ChannelId}
    (ht : (channelTableAddress id).toNat = (channelTableAddress id').toNat)
    (hs : (channelSubtableAddress id).toNat = (channelSubtableAddress id').toNat) : id = id' := by
  rw [channelTableAddress_toNat, channelTableAddress_toNat] at ht
  rw [channelSubtableAddress_toNat, channelSubtableAddress_toNat] at hs
  rw [← UInt32.toNat_inj]
  omega

section

variable {table : ChannelsTable} {id id' : ChannelId} {f : Channel → Channel}

/-- Every place in a sub-table has an identifier under which it is found. -/
theorem ChannelsTable.exists_id (i : Fin channelsNumSubtables) (j : Fin channelsSegment) :
    ∃ id, ∀ table : ChannelsTable,
      ((table.subtables i).bind fun sub => sub.channels j) = table.lookup id := by
  have hi : i.val < 238328 := i.isLt
  have hj : j.val < 62 := j.isLt
  have hnat : (UInt32.ofNat (i.val * 64 + j.val)).toNat = i.val * 64 + j.val := by
    rw [UInt32.toNat_ofNat']
    omega
  have ht : (channelTableAddress (UInt32.ofNat (i.val * 64 + j.val))).toNat = i.val := by
    rw [channelTableAddress_toNat, hnat]
    omega
  have hs : (channelSubtableAddress (UInt32.ofNat (i.val * 64 + j.val))).toNat = j.val := by
    rw [channelSubtableAddress_toNat, hnat]
    omega
  have hr : InRange (UInt32.ofNat (i.val * 64 + j.val)) := by
    constructor
    · rw [ht]
      exact i.isLt
    · rw [hs]
      exact j.isLt
  have hsub : (⟨_, hr.1⟩ : Fin channelsNumSubtables) = i := Fin.ext ht
  have hchannel : (⟨_, hr.2⟩ : Fin channelsSegment) = j := Fin.ext hs
  refine ⟨UInt32.ofNat (i.val * 64 + j.val), fun table => ?_⟩
  rw [lookup, dif_pos hr, hsub, hchannel]

/-- Every identifier under which a channel is found has a place. -/
theorem ChannelsTable.exists_place {channel : Channel} (h : table.lookup id = some channel) :
    ∃ i j, ∀ table : ChannelsTable,
      ((table.subtables i).bind fun sub => sub.channels j) = table.lookup id := by
  by_cases hr : InRange id
  · exact ⟨⟨_, hr.1⟩, ⟨_, hr.2⟩, fun table => by rw [lookup, dif_pos hr]⟩
  · rw [lookup, dif_neg hr] at h
    cases h

theorem getChannel_eq_lookup (h : InRange id) :
    getChannel (some table) id = some (table.lookup id) := by
  simp only [getChannel, ChannelsTable.read_inRange h, Option.bind_eq_bind, Option.bind_some,
    ChannelsTable.lookup, h, ↓reduceDIte]
  cases table.subtables ⟨_, h.1⟩ with
  | none => rfl
  | some sub => simp [ChannelsSubtable.read_inRange h]

/-- Where a lookup does not leave the table, it finds what `lookup` finds. -/
theorem getChannel_join (table : ChannelsTable) (id : ChannelId) :
    (getChannel (some table) id).join = table.lookup id := by
  by_cases h : InRange id
  · rw [getChannel_eq_lookup h]; rfl
  · simp only [getChannel, ChannelsTable.lookup, h, ↓reduceDIte]
    cases hr : table.read (channelTableAddress id) with
    | none => rfl
    | some sub =>
      cases sub with
      | none => rfl
      | some sub =>
        have ht : (channelTableAddress id).toNat < channelsNumSubtables := by
          unfold ChannelsTable.read at hr
          split_ifs at hr with ht
          exact ht
        have hs : ¬ (channelSubtableAddress id).toNat < channelsSegment := fun hs => h ⟨ht, hs⟩
        simp [ChannelsSubtable.read, hs]

theorem ChannelsTable.lookup_modify_self :
    (table.modify id f).lookup id = (table.lookup id).map f := by
  by_cases h : InRange id
  · simp only [modify, lookup, h, ↓reduceDIte, Function.update_self]
    cases table.subtables ⟨_, h.1⟩ with
    | none => rfl
    | some sub => simp
  · simp [lookup, h]

theorem ChannelsTable.lookup_modify_of_ne (hne : id' ≠ id) :
    (table.modify id f).lookup id' = table.lookup id' := by
  by_cases h' : InRange id'
  · by_cases h : InRange id
    · simp only [modify, lookup, h, h', ↓reduceDIte]
      by_cases ht : (channelTableAddress id').toNat = (channelTableAddress id).toNat
      · have hs : (channelSubtableAddress id').toNat ≠ (channelSubtableAddress id).toNat :=
          fun hs => hne (channelId_eq_of_addresses ht hs)
        simp only [ht, Function.update_self]
        cases table.subtables ⟨_, h.1⟩ with
        | none => rfl
        | some sub => simp [hs]
      · have hne' : (⟨_, h'.1⟩ : Fin channelsNumSubtables) ≠ ⟨_, h.1⟩ := fun he =>
          ht (Fin.mk.inj he)
        rw [Function.update_of_ne hne']
    · simp [modify, h]
  · simp [lookup, h']

theorem ChannelsTable.isSome_lookup_modify :
    ((table.modify id f).lookup id').isSome = (table.lookup id').isSome := by
  by_cases h : id' = id
  · subst h; rw [lookup_modify_self, Option.isSome_map]
  · rw [lookup_modify_of_ne h]

theorem ChannelsTable.lookup_erase_self : (table.erase id).lookup id = none := by
  by_cases h : InRange id
  · simp only [erase, lookup, h, ↓reduceDIte, Function.update_self]
    cases table.subtables ⟨_, h.1⟩ with
    | none => rfl
    | some sub => simp
  · simp [lookup, h]

theorem ChannelsTable.lookup_erase_of_ne (hne : id' ≠ id) :
    (table.erase id).lookup id' = table.lookup id' := by
  by_cases h' : InRange id'
  · by_cases h : InRange id
    · simp only [erase, lookup, h, h', ↓reduceDIte]
      by_cases ht : (channelTableAddress id').toNat = (channelTableAddress id).toNat
      · have hs : (channelSubtableAddress id').toNat ≠ (channelSubtableAddress id).toNat :=
          fun hs => hne (channelId_eq_of_addresses ht hs)
        simp only [ht, Function.update_self]
        cases table.subtables ⟨_, h.1⟩ with
        | none => rfl
        | some sub => simp [hs]
      · have hne' : (⟨_, h'.1⟩ : Fin channelsNumSubtables) ≠ ⟨_, h.1⟩ := fun he =>
          ht (Fin.mk.inj he)
        rw [Function.update_of_ne hne']
    · simp [erase, h]
  · simp [lookup, h']

theorem ChannelsTable.lookup_single {channel : Channel} (h : InRange channel.id) :
    (single channel).lookup channel.id = some channel := by
  simp [lookup, single, h]

theorem ChannelsTable.eq_of_lookup_single {channel found : Channel}
    (h : (single channel).lookup id = some found) : id = channel.id ∧ found = channel := by
  by_cases hid : InRange id
  · simp only [lookup, hid, ↓reduceDIte, single] at h
    split_ifs at h with ht
    · simp only [Option.bind_some] at h
      split_ifs at h with hs
      exact ⟨channelId_eq_of_addresses ht hs, (Option.some.inj h).symm⟩
    · cases h
  · simp [lookup, hid] at h

namespace ChannelsTable

variable {table' table'' : ChannelsTable}

theorem Resembles.of_lookup (h : ∀ id, table'.lookup id = table.lookup id) :
    table.Resembles table' :=
  fun id => by rw [h id]

theorem Resembles.refl : table.Resembles table := .of_lookup fun _ => rfl

theorem Resembles.trans (h : table.Resembles table') (h' : table'.Resembles table'') :
    table.Resembles table'' :=
  fun id => (h' id).trans (h id)

theorem Resembles.exists_channel {channel' : Channel} (h : table.Resembles table')
    (hid : table'.lookup id = some channel') :
    ∃ channel, table.lookup id = some channel ∧ channel'.still = channel.still := by
  have hmap := h id
  rw [hid, Option.map_some] at hmap
  obtain ⟨channel, hfound, hstill⟩ := Option.map_eq_some_iff.1 hmap.symm
  exact ⟨channel, hfound, hstill.symm⟩

end ChannelsTable

/-- The channel was stored and all others are kept, or the table is as before. -/
def PutResult (table : ChannelsTable) (channel : Channel) (stored : Bool)
    (table' : ChannelsTable) : Prop :=
  (stored = true ∧ table'.lookup channel.id = some channel ∧
    ∀ id, id ≠ channel.id → table'.lookup id = table.lookup id) ∨
  (stored = false ∧ ∀ id, table'.lookup id = table.lookup id)

theorem storeChannel_result {sub : ChannelsSubtable} {channel : Channel} {stored : Bool}
    {table' : ChannelsTable} (hr : InRange channel.id)
    (hsub : (table.subtables ⟨_, hr.1⟩) = some sub)
    (h : storeChannel table sub channel = some (stored, some table')) :
    PutResult table channel stored table' := by
  simp only [storeChannel, ChannelsSubtable.read_inRange hr, Option.bind_eq_bind,
    Option.bind_some] at h
  cases hch : sub.channels ⟨_, hr.2⟩ with
  | some c =>
    rw [hch] at h
    cases h
    exact .inr ⟨rfl, fun _ => rfl⟩
  | none =>
    simp only [hch, ChannelsSubtable.write_inRange hr, ChannelsTable.write_inRange hr,
      Option.bind_some, Option.pure_def, Option.some.injEq, Prod.mk.injEq] at h
    obtain ⟨rfl, rfl⟩ := h
    refine .inl ⟨rfl, by simp [ChannelsTable.lookup, hr], fun id hne => ?_⟩
    by_cases h' : InRange id
    · simp only [ChannelsTable.lookup, h', ↓reduceDIte]
      by_cases ht : (channelTableAddress id).toNat = (channelTableAddress channel.id).toNat
      · have hs : (channelSubtableAddress id).toNat ≠ (channelSubtableAddress channel.id).toNat :=
          fun hs => hne (channelId_eq_of_addresses ht hs)
        simp [ht, hsub, hs]
      · have hne' : (⟨_, h'.1⟩ : Fin channelsNumSubtables) ≠ ⟨_, hr.1⟩ := fun he =>
          ht (Fin.mk.inj he)
        rw [Function.update_of_ne hne']
    · simp [ChannelsTable.lookup, h']

/-- A new sub-table changes no entry. -/
theorem ChannelsTable.lookup_write_empty (h : InRange id')
    (hsub : table.subtables ⟨_, h.1⟩ = none) (id : ChannelId) :
    ChannelsTable.lookup { table with
      subtables := Function.update table.subtables ⟨_, h.1⟩ (some .empty) } id =
      table.lookup id := by
  by_cases hr : InRange id
  · simp only [lookup, hr, ↓reduceDIte]
    by_cases ht : (channelTableAddress id).toNat = (channelTableAddress id').toNat
    · simp [ht, hsub, ChannelsSubtable.empty]
    · have hne : (⟨_, hr.1⟩ : Fin channelsNumSubtables) ≠ ⟨_, h.1⟩ := fun he => ht (Fin.mk.inj he)
      rw [Function.update_of_ne hne]
  · simp [lookup, hr]

theorem putChannel_result {alloc stored : Bool} {channel : Channel} {table' : ChannelsTable}
    (hr : InRange channel.id)
    (h : putChannel alloc (some table) (some channel) = some (stored, some table')) :
    PutResult table channel stored table' := by
  simp only [putChannel, ChannelsTable.read_inRange hr, Option.bind_eq_bind,
    Option.bind_some] at h
  by_cases hpending : table.destructionPending = true
  · simp only [hpending, ↓reduceIte, Option.pure_def, Option.some.injEq, Prod.mk.injEq] at h
    obtain ⟨rfl, rfl⟩ := h
    exact .inr ⟨rfl, fun _ => rfl⟩
  · simp only [hpending] at h
    cases hsub : table.subtables ⟨_, hr.1⟩ with
    | some sub =>
      rw [hsub] at h
      exact storeChannel_result hr hsub h
    | none =>
      rw [hsub] at h
      cases alloc with
      | false =>
        cases h
        exact .inr ⟨rfl, fun _ => rfl⟩
      | true =>
        simp only [ChannelsTable.write_inRange hr] at h
        have hnew := ChannelsTable.lookup_write_empty hr hsub
        rcases storeChannel_result hr (by simp) h with ⟨hs, hch, hkept⟩ | ⟨hs, hkept⟩
        · exact .inl ⟨hs, hch, fun id hne => (hkept id hne).trans (hnew id)⟩
        · exact .inr ⟨hs, fun id => (hkept id).trans (hnew id)⟩

/-- Freeing a sub-table without channels is the same as keeping it. -/
theorem ChannelsSubtable.bind_ite_isEmpty (sub : ChannelsSubtable) (j : Fin channelsSegment) :
    ((if sub.isEmpty = true then none else some sub).bind fun sub => sub.channels j) =
      sub.channels j := by
  split_ifs with hempty
  · simp only [isEmpty, List.all_eq_true] at hempty
    exact (Option.isNone_iff_eq_none.1 (hempty j (List.mem_finRange j))).symm
  · rfl

theorem popChannel_eq_lookup (h : InRange id) :
    ∃ table', popChannel (some table) id = some (table.lookup id, some table') := by
  simp only [popChannel, ChannelsTable.read_inRange h, Option.bind_eq_bind, Option.bind_some,
    ChannelsTable.lookup, h, ↓reduceDIte]
  cases table.subtables ⟨_, h.1⟩ with
  | none => exact ⟨table, rfl⟩
  | some sub =>
    exact ⟨_, by
      simp only [ChannelsSubtable.read_inRange h, ChannelsSubtable.write_inRange h,
        ChannelsTable.write_inRange h, Option.bind_some]
      rfl⟩

theorem popChannel_of_not_inRange (h : ¬ InRange id) :
    popChannel (some table) id = none ∨ popChannel (some table) id = some (none, some table) := by
  by_cases ht : (channelTableAddress id).toNat < channelsNumSubtables
  · have hs : ¬ (channelSubtableAddress id).toNat < channelsSegment := fun hs => h ⟨ht, hs⟩
    cases hsub : table.subtables ⟨_, ht⟩ with
    | none => exact .inr (by simp [popChannel, ChannelsTable.read, ht, hsub])
    | some sub =>
      exact .inl (by simp [popChannel, ChannelsTable.read, ht, hsub, ChannelsSubtable.read, hs])
  · exact .inl (by simp [popChannel, ChannelsTable.read, ht])

/-- A channel that was popped is gone, and all others are kept, although a sub-table without
channels is freed. -/
theorem popChannel_result {channel : Option Channel} {table' : ChannelsTable}
    (h : popChannel (some table) id = some (channel, some table')) :
    table'.lookup id = none ∧ ∀ id', id' ≠ id → table'.lookup id' = table.lookup id' := by
  by_cases ht : (channelTableAddress id).toNat < channelsNumSubtables
  swap
  · simp [popChannel, ChannelsTable.read, ht] at h
  cases hsub : table.subtables ⟨_, ht⟩ with
  | none =>
    simp only [popChannel, ChannelsTable.read, ht, ↓reduceDIte, hsub, Option.bind_eq_bind,
      Option.bind_some, Option.pure_def, Option.some.injEq, Prod.mk.injEq] at h
    obtain ⟨-, rfl⟩ := h
    exact ⟨by simp [ChannelsTable.lookup, hsub], fun _ _ => rfl⟩
  | some sub =>
    by_cases hs : (channelSubtableAddress id).toNat < channelsSegment
    swap
    · simp [popChannel, ChannelsTable.read, ht, hsub, ChannelsSubtable.read, hs] at h
    have hr : InRange id := ⟨ht, hs⟩
    simp only [popChannel, ChannelsTable.read_inRange hr, hsub, ChannelsSubtable.read_inRange hr,
      ChannelsSubtable.write_inRange hr, ChannelsTable.write_inRange hr, Option.bind_eq_bind,
      Option.bind_some, Option.pure_def, Option.some.injEq, Prod.mk.injEq] at h
    obtain ⟨-, rfl⟩ := h
    refine ⟨?_, fun id' hne => ?_⟩
    · simp only [ChannelsTable.lookup, hr, ↓reduceDIte, Function.update_self]
      rw [ChannelsSubtable.bind_ite_isEmpty]
      exact Function.update_self _ _ _
    · by_cases hr' : InRange id'
      swap
      · simp [ChannelsTable.lookup, hr']
      simp only [ChannelsTable.lookup, hr', ↓reduceDIte]
      by_cases htable : (channelTableAddress id').toNat = (channelTableAddress id).toNat
      · have hchannel : (⟨_, hr'.2⟩ : Fin channelsSegment) ≠ ⟨_, hs⟩ := fun he =>
          hne (channelId_eq_of_addresses htable (Fin.mk.inj he))
        simp only [htable, Function.update_self, hsub, Option.bind_some]
        rw [ChannelsSubtable.bind_ite_isEmpty]
        exact Function.update_of_ne hchannel _ _
      · have hne' : (⟨_, hr'.1⟩ : Fin channelsNumSubtables) ≠ ⟨_, ht⟩ := fun he =>
          htable (Fin.mk.inj he)
        rw [Function.update_of_ne hne']

theorem storeChannel_eq_none {sub : ChannelsSubtable} {channel : Channel}
    (hs : ¬ (channelSubtableAddress channel.id).toNat < channelsSegment) :
    storeChannel table sub channel = none := by
  simp [storeChannel, ChannelsSubtable.read, hs]

theorem putChannel_result_of_not_inRange {alloc stored : Bool} {channel : Channel}
    {table' : ChannelsTable} (hr : ¬ InRange channel.id)
    (h : putChannel alloc (some table) (some channel) = some (stored, some table')) :
    PutResult table channel stored table' := by
  by_cases ht : (channelTableAddress channel.id).toNat < channelsNumSubtables
  · have hs : ¬ (channelSubtableAddress channel.id).toNat < channelsSegment := fun hs => hr ⟨ht, hs⟩
    simp only [putChannel, ChannelsTable.read, ht, ↓reduceDIte, ChannelsTable.write,
      storeChannel_eq_none hs, Option.bind_eq_bind, Option.bind_some] at h
    split_ifs at h with hpending halloc
    · cases h
      exact .inr ⟨rfl, fun _ => rfl⟩
    · cases hsub : table.subtables ⟨_, ht⟩ with
      | some sub => rw [hsub] at h; cases h
      | none => rw [hsub] at h; cases h; exact .inr ⟨rfl, fun _ => rfl⟩
    · cases hsub : table.subtables ⟨_, ht⟩ with
      | some sub => rw [hsub] at h; cases h
      | none => rw [hsub] at h; cases h
  · simp only [putChannel, ChannelsTable.read, ht, ↓reduceDIte, Option.bind_eq_bind,
      Option.bind_none] at h
    split_ifs at h
    cases h
    exact .inr ⟨rfl, fun _ => rfl⟩

end

end XprcServer
