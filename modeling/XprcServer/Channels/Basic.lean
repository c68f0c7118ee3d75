import XprcServer.Basic
import Mathlib.Tactic.SplitIfs

/-!
# Channel identifiers and the channels table

`channels.c`: a channel is named by four characters `[a-zA-Z0-9]`, packed into six bits each
(`stringToChannelId`), and registered in a two-level table: the upper 18 bits select one of
`channelsNumSubtables` sub-tables, the lowest 6 bits one of its `channelsSegment` entries.

Neither level checks its index.  An array access of the model therefore yields `none` when the
index is outside the array (`Access`), so that staying inside is a statement about the code and
not an assumption of the model.  `InRange` is the condition on an identifier under which both
levels are accessed inside their bounds.

Channels are stored by value: every pointer to a channel that the plugin keeps is obtained from
the table, under the identifier of the channel.
-/

namespace XprcServer

/-! ### Identifiers -/

/-- `channel_id_t` -/
abbrev ChannelId := UInt32

/-- `CHANNELS_SEGMENT`: the number of characters a segment of an identifier can have. -/
def channelsSegment : ℕ := 62

/-- `CHANNELS_NUM_SUBTABLES` -/
def channelsNumSubtables : ℕ := channelsSegment * channelsSegment * channelsSegment

/-- `BAD_CHANNEL_ID` -/
def badChannelId : ChannelId := 0xFFFFFFFF

/-- `BAD_CHANNEL_ID_SEGMENT` -/
def badChannelIdSegment : UInt8 := 0xFF

/-- `char_to_channel_id_segment` -/
def charToChannelIdSegment (ch : UInt8) : UInt8 :=
  if 97 ≤ ch ∧ ch ≤ 122 then ch - 97 -- 'a' .. 'z'
  else if 65 ≤ ch ∧ ch ≤ 90 then ch - 65 + 26 -- 'A' .. 'Z'
  else if 48 ≤ ch ∧ ch ≤ 57 then ch - 48 + 52 -- '0' .. '9'
  else badChannelIdSegment

/-- `channel_id_segment_to_char` -/
def channelIdSegmentToChar (segment : UInt8) : UInt8 :=
  if segment < 26 then 97 + segment
  else if segment < 52 then 65 + segment - 26
  else if segment < 62 then 48 + segment - 52
  else 95 -- '_'

/-- The loop of `string_to_channel_id` with `n` characters left to read. -/
def stringToChannelIdLoop (s : ℕ → UInt8) : ℕ → ChannelId → ChannelId
  | 0, id => id
  | n + 1, id =>
    let segment := charToChannelIdSegment (s (3 - n))
    if segment = badChannelIdSegment then badChannelId
    else stringToChannelIdLoop s n ((id <<< 6) ||| segment.toUInt32)

/-- `string_to_channel_id` of a non-NULL string. -/
def stringToChannelId (s : ℕ → UInt8) : ChannelId := stringToChannelIdLoop s 4 0

/-- `channel_id_to_string`: the four characters written to the destination. -/
def channelIdToString (id : ChannelId) : List UInt8 :=
  [id >>> 18, id >>> 12, id >>> 6, id].map fun part =>
    channelIdSegmentToChar (part &&& 0b00111111).toUInt8

/-- `channel_table_address` -/
def channelTableAddress (id : ChannelId) : UInt32 := id >>> 6

/-- `channel_subtable_address` -/
def channelSubtableAddress (id : ChannelId) : UInt8 := (id &&& 0b00111111).toUInt8

/-- Both levels of the table are accessed inside their bounds. -/
def InRange (id : ChannelId) : Prop :=
  (channelTableAddress id).toNat < channelsNumSubtables ∧
    (channelSubtableAddress id).toNat < channelsSegment

instance (id : ChannelId) : Decidable (InRange id) := inferInstanceAs (Decidable (_ ∧ _))

/-! ### The table -/

/-- `channel_state_t` -/
inductive ChannelState where
  | initial
  | confirmed
  | closed
  deriving DecidableEq, Repr

/-- The command descriptors registered by `create_command_factory`. -/
inductive Command where
  | cmhd | cmrg | cmtr | drci | drls | drqv | drmu | srfs | srid | srlc
  deriving DecidableEq, Repr

/-- `channel_t`.  A `command_ref` is only ever compared with NULL or handed back to the command,
so a number stands for it. -/
structure Channel where
  id : ChannelId
  state : ChannelState
  destructionRequested : Bool
  command : Option Command
  commandRef : Option ℕ
  deriving DecidableEq, Repr

/-- `channels_subtable_t` -/
structure ChannelsSubtable where
  channels : Fin channelsSegment → Option Channel

/-- `channels_table_t` -/
structure ChannelsTable where
  destructionPending : Bool
  subtables : Fin channelsNumSubtables → Option ChannelsSubtable

/-- The result of code that accesses arrays; `none` if an index was outside its array. -/
abbrev Access (α : Type) := Option α

namespace ChannelsSubtable

/-- A freshly allocated (zeroed) sub-table. -/
def empty : ChannelsSubtable := ⟨fun _ => none⟩

/-- `subtable->channels[i]` -/
def read (sub : ChannelsSubtable) (i : UInt8) : Access (Option Channel) :=
  if h : i.toNat < channelsSegment then some (sub.channels ⟨i.toNat, h⟩) else none

/-- `subtable->channels[i] = channel` -/
def write (sub : ChannelsSubtable) (i : UInt8) (channel : Option Channel) :
    Access ChannelsSubtable :=
  if h : i.toNat < channelsSegment then
    some ⟨Function.update sub.channels ⟨i.toNat, h⟩ channel⟩
  else none

/-- All channels are gone. -/
def isEmpty (sub : ChannelsSubtable) : Bool :=
  (List.finRange channelsSegment).all fun i => (sub.channels i).isNone

end ChannelsSubtable

namespace ChannelsTable

/-- `create_channels_table`: a zeroed table. -/
def empty : ChannelsTable := ⟨false, fun _ => none⟩

/-- `table->subtables[i]` -/
def read (table : ChannelsTable) (i : UInt32) : Access (Option ChannelsSubtable) :=
  if h : i.toNat < channelsNumSubtables then some (table.subtables ⟨i.toNat, h⟩) else none

/-- `table->subtables[i] = subtable` -/
def write (table : ChannelsTable) (i : UInt32) (sub : Option ChannelsSubtable) :
    Access ChannelsTable :=
  if h : i.toNat < channelsNumSubtables then
    some { table with subtables := Function.update table.subtables ⟨i.toNat, h⟩ sub }
  else none

end ChannelsTable

/-- `get_channel` -/
def getChannel (table : Option ChannelsTable) (id : ChannelId) : Access (Option Channel) := do
  match table with
  | none => return none
  | some table =>
    match ← table.read (channelTableAddress id) with
    | none => return none
    | some subtable => subtable.read (channelSubtableAddress id)

/-- `has_channel` -/
def hasChannel (table : Option ChannelsTable) (id : ChannelId) : Access Bool := do
  return (← getChannel table id).isSome

/-- `pop_channel`: the removed channel and the table afterwards. -/
def popChannel (table : Option ChannelsTable) (id : ChannelId) :
    Access (Option Channel × Option ChannelsTable) := do
  match table with
  | none => return (none, none)
  | some table =>
    match ← table.read (channelTableAddress id) with
    | none => return (none, some table)
    | some subtable =>
      let channel ← subtable.read (channelSubtableAddress id)
      let subtable ← subtable.write (channelSubtableAddress id) none
      -- the sub-table is freed as soon as all its channels are gone
      let table ← table.write (channelTableAddress id)
        (if subtable.isEmpty then none else some subtable)
      return (channel, some table)

/-- The end of `put_channel`, once the sub-table exists: a registered channel is not replaced. -/
def storeChannel (table : ChannelsTable) (subtable : ChannelsSubtable) (channel : Channel) :
    Access (Bool × Option ChannelsTable) := do
  match ← subtable.read (channelSubtableAddress channel.id) with
  | some _ => return (false, some table)
  | none =>
    let subtable ← subtable.write (channelSubtableAddress channel.id) (some channel)
    return (true, some (← table.write (channelTableAddress channel.id) (some subtable)))

/-- `put_channel`: whether the channel was stored, and the table afterwards.  `alloc` is the
outcome of allocating a sub-table, should one be needed. -/
def putChannel (alloc : Bool) (table : Option ChannelsTable) (channel : Option Channel) :
    Access (Bool × Option ChannelsTable) := do
  match table, channel with
  | some table, some channel =>
    if table.destructionPending then return (false, some table)
    match ← table.read (channelTableAddress channel.id) with
    | some subtable => storeChannel table subtable channel
    | none =>
      if !alloc then return (false, some table)
      let table ← table.write (channelTableAddress channel.id) (some .empty)
      storeChannel table .empty channel
  | table, _ => return (false, table)

/-- `request_channel_destruction`: the channel is marked in place. -/
def requestChannelDestruction (table : Option ChannelsTable) (id : ChannelId) :
    Access (Option ChannelsTable) := do
  match table, ← getChannel table id with
  | some table, some channel =>
    match ← table.read (channelTableAddress id) with
    | none => return some table
    | some subtable =>
      let subtable ← subtable.write (channelSubtableAddress id)
        (some { channel with destructionRequested := true })
      return some (← table.write (channelTableAddress id) (some subtable))
  | table, _ => return table

/-! ### Accesses in range -/

theorem channelTableAddress_toNat (id : ChannelId) :
    (channelTableAddress id).toNat = id.toNat / 64 := by
  rw [channelTableAddress, UInt32.toNat_shiftRight, Nat.shiftRight_eq_div_pow]
  rfl

theorem channelSubtableAddress_toNat (id : ChannelId) :
    (channelSubtableAddress id).toNat = id.toNat % 64 := by
  rw [channelSubtableAddress, UInt32.toNat_toUInt8, UInt32.toNat_and]
  rw [show (0b00111111 : UInt32).toNat = 2 ^ 6 - 1 from rfl, Nat.and_two_pow_sub_one_eq_mod]
  omega

section

variable {id : ChannelId}

theorem ChannelsTable.read_inRange (h : InRange id) (table : ChannelsTable) :
    table.read (channelTableAddress id) = some (table.subtables ⟨_, h.1⟩) := by
  simp [ChannelsTable.read, h.1]

theorem ChannelsTable.write_inRange (h : InRange id) (table : ChannelsTable)
    (sub : Option ChannelsSubtable) :
    table.write (channelTableAddress id) sub =
      some { table with subtables := Function.update table.subtables ⟨_, h.1⟩ sub } := by
  simp [ChannelsTable.write, h.1]

theorem ChannelsSubtable.read_inRange (h : InRange id) (sub : ChannelsSubtable) :
    sub.read (channelSubtableAddress id) = some (sub.channels ⟨_, h.2⟩) := by
  simp [ChannelsSubtable.read, h.2]

theorem ChannelsSubtable.write_inRange (h : InRange id) (sub : ChannelsSubtable)
    (channel : Option Channel) :
    sub.write (channelSubtableAddress id) channel =
      some ⟨Function.update sub.channels ⟨_, h.2⟩ channel⟩ := by
  simp [ChannelsSubtable.write, h.2]

end

end XprcServer
