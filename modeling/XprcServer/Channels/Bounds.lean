import XprcServer.Requests

/-!
# The channels table and its bounds

An accepted request line names a channel by four characters of a 62-letter alphabet, packed in
six bits each (`stringToChannelId_toNat`).  The last character selects an entry of a sub-table
and is always inside it.  The first three select the sub-table: packed, they reach up to
`61 * 64 ^ 2 + 61 * 64 + 61`, while the table has `62 ^ 3` entries.

* `inRange_iff_precedesLimit` : the address stays inside exactly for the names that precede
  `6l4` in the order of the alphabet (`a`-`z`, `A`-`Z`, `0`-`9`);
* `accepted_request_in_bounds_iff` : the same for the identifier of an accepted request line
  and every operation of the table.
-/

namespace XprcServer

/-! ### Packing -/

theorem charToChannelIdSegment_lt {ch : UInt8}
    (h : charToChannelIdSegment ch ≠ badChannelIdSegment) :
    (charToChannelIdSegment ch).toNat < 62 := by
  unfold charToChannelIdSegment at h ⊢
  split_ifs at h ⊢ with h1 h2 h3
  all_goals
    simp only [UInt8.le_iff_toNat_le, UInt8.toNat_add, UInt8.toNat_sub, UInt8.reduceToNat] at *
  · omega
  · omega
  · omega
  · exact absurd rfl h

theorem toNat_shift_or (id : ChannelId) {segment : UInt8} (hid : id.toNat < 2 ^ 18)
    (hs : segment.toNat < 62) :
    ((id <<< 6) ||| segment.toUInt32).toNat = id.toNat * 64 + segment.toNat := by
  have hid' : id.toNat <<< 6 < 2 ^ 32 := by rw [Nat.shiftLeft_eq]; omega
  rw [UInt32.toNat_or, UInt32.toNat_shiftLeft, UInt8.toNat_toUInt32]
  rw [show (6 : UInt32).toNat % 32 = 6 from rfl, Nat.mod_eq_of_lt hid']
  rw [← Nat.shiftLeft_add_eq_or_of_lt (by omega), Nat.shiftLeft_eq]

/-- The segment that character `i` of a name stands for. -/
def segmentAt (s : ℕ → UInt8) (i : ℕ) : ℕ := (charToChannelIdSegment (s i)).toNat

/-- A name of four known characters is packed without loss: four digits to base 64. -/
theorem stringToChannelId_packed {s : ℕ → UInt8}
    (h : ∀ i < 4, charToChannelIdSegment (s i) ≠ badChannelIdSegment) :
    (stringToChannelId s).toNat =
      ((segmentAt s 0 * 64 + segmentAt s 1) * 64 + segmentAt s 2) * 64 + segmentAt s 3 := by
  have b0 := charToChannelIdSegment_lt (h 0 (by omega))
  have b1 := charToChannelIdSegment_lt (h 1 (by omega))
  have b2 := charToChannelIdSegment_lt (h 2 (by omega))
  have b3 := charToChannelIdSegment_lt (h 3 (by omega))
  have e0 := toNat_shift_or 0 (by decide) b0
  have e1 := toNat_shift_or _ (by rw [e0, UInt32.toNat_zero]; omega) b1
  have e2 := toNat_shift_or _ (by rw [e1, e0, UInt32.toNat_zero]; omega) b2
  have e3 := toNat_shift_or _ (by rw [e2, e1, e0, UInt32.toNat_zero]; omega) b3
  simp only [stringToChannelId, stringToChannelIdLoop]
  rw [if_neg (h 0 (by omega)), if_neg (h 1 (by omega)), if_neg (h 2 (by omega)),
    if_neg (h 3 (by omega)), e3, e2, e1, e0, UInt32.toNat_zero]
  simp [segmentAt]

theorem segment_ne_bad_of_stringToChannelId {s : ℕ → UInt8} (h : stringToChannelId s ≠ badChannelId)
    (i : ℕ) (hi : i < 4) : charToChannelIdSegment (s i) ≠ badChannelIdSegment := by
  simp only [stringToChannelId, stringToChannelIdLoop] at h
  split_ifs at h with h0 h1 h2 h3 <;> try exact absurd rfl h
  have : i = 0 ∨ i = 1 ∨ i = 2 ∨ i = 3 := by omega
  rcases this with rfl | rfl | rfl | rfl <;> assumption

/-- An accepted name is packed without loss: four digits to base 64, each below 62. -/
theorem stringToChannelId_toNat {s : ℕ → UInt8} (h : stringToChannelId s ≠ badChannelId) :
    (∀ i < 4, segmentAt s i < 62) ∧
      (stringToChannelId s).toNat =
        ((segmentAt s 0 * 64 + segmentAt s 1) * 64 + segmentAt s 2) * 64 + segmentAt s 3 := by
  have hseg := segment_ne_bad_of_stringToChannelId h
  exact ⟨fun i hi => charToChannelIdSegment_lt (hseg i hi), stringToChannelId_packed hseg⟩

/-- The first three characters of the name precede `6l4` in the order of the alphabet. -/
def PrecedesLimit (s : ℕ → UInt8) : Prop :=
  segmentAt s 0 < 58 ∨ segmentAt s 0 = 58 ∧
    (segmentAt s 1 < 11 ∨ segmentAt s 1 = 11 ∧ segmentAt s 2 < 56)

instance (s : ℕ → UInt8) : Decidable (PrecedesLimit s) := inferInstanceAs (Decidable (_ ∨ _))

example : charToChannelIdSegment 54 = 58 ∧ charToChannelIdSegment 108 = 11 ∧
    charToChannelIdSegment 52 = 56 := by decide

theorem inRange_iff_precedesLimit {s : ℕ → UInt8} (h : stringToChannelId s ≠ badChannelId) :
    InRange (stringToChannelId s) ↔ PrecedesLimit s := by
  obtain ⟨hb, he⟩ := stringToChannelId_toNat h
  have h0 := hb 0 (by omega)
  have h1 := hb 1 (by omega)
  have h2 := hb 2 (by omega)
  have h3 := hb 3 (by omega)
  simp only [InRange, channelTableAddress_toNat, channelSubtableAddress_toNat, he, PrecedesLimit]
  simp only [channelsNumSubtables, channelsSegment]
  omega

/-! ### Operations of the table -/

/-- Every operation of the table on `id` accesses its arrays inside their bounds. -/
structure OperationsInBounds (id : ChannelId) : Prop where
  has : ∀ table, (hasChannel table id).isSome
  get : ∀ table, (getChannel table id).isSome
  put : ∀ alloc table channel, channel.id = id → (putChannel alloc table (some channel)).isSome
  pop : ∀ table, (popChannel table id).isSome
  requestDestruction : ∀ table, (requestChannelDestruction table id).isSome

section

variable {id : ChannelId}

theorem getChannel_isSome (h : InRange id) (table : Option ChannelsTable) :
    (getChannel table id).isSome := by
  cases table with
  | none => rfl
  | some table =>
    simp only [getChannel, ChannelsTable.read_inRange h, Option.bind_eq_bind, Option.bind_some]
    cases table.subtables ⟨_, h.1⟩ with
    | none => rfl
    | some sub => simp [ChannelsSubtable.read_inRange h]

theorem popChannel_isSome (h : InRange id) (table : Option ChannelsTable) :
    (popChannel table id).isSome := by
  cases table with
  | none => rfl
  | some table =>
    simp only [popChannel, ChannelsTable.read_inRange h, Option.bind_eq_bind, Option.bind_some]
    cases table.subtables ⟨_, h.1⟩ with
    | none => rfl
    | some sub =>
      simp [ChannelsSubtable.read_inRange h, ChannelsSubtable.write_inRange h,
        ChannelsTable.write_inRange h]

theorem storeChannel_isSome {channel : Channel} (h : InRange channel.id) (table : ChannelsTable)
    (sub : ChannelsSubtable) : (storeChannel table sub channel).isSome := by
  simp only [storeChannel, ChannelsSubtable.read_inRange h, Option.bind_eq_bind, Option.bind_some]
  cases sub.channels ⟨_, h.2⟩ with
  | some _ => rfl
  | none => simp [ChannelsSubtable.write_inRange h, ChannelsTable.write_inRange h]

theorem putChannel_isSome {channel : Channel} (h : InRange channel.id) (alloc : Bool)
    (table : Option ChannelsTable) : (putChannel alloc table (some channel)).isSome := by
  cases table with
  | none => rfl
  | some table =>
    simp only [putChannel, ChannelsTable.read_inRange h, Option.bind_eq_bind, Option.bind_some]
    by_cases hpending : table.destructionPending
    · simp [hpending]
    · simp only [hpending, Bool.false_eq_true, ↓reduceIte]
      cases table.subtables ⟨_, h.1⟩ with
      | some sub => exact storeChannel_isSome h table sub
      | none =>
        cases alloc with
        | false => rfl
        | true => simp [ChannelsTable.write_inRange h, storeChannel_isSome h]

theorem requestChannelDestruction_isSome (h : InRange id) (table : Option ChannelsTable) :
    (requestChannelDestruction table id).isSome := by
  obtain ⟨found, hfound⟩ := Option.isSome_iff_exists.1 (getChannel_isSome h table)
  simp only [requestChannelDestruction, hfound, Option.bind_eq_bind, Option.bind_some]
  cases table with
  | none => rfl
  | some table =>
    cases found with
    | none => rfl
    | some channel =>
      simp only [ChannelsTable.read_inRange h, Option.bind_some]
      cases table.subtables ⟨_, h.1⟩ with
      | none => rfl
      | some sub => simp [ChannelsSubtable.write_inRange h, ChannelsTable.write_inRange h]

theorem operationsInBounds_of_inRange (h : InRange id) : OperationsInBounds id where
  has table := by
    obtain ⟨found, hfound⟩ := Option.isSome_iff_exists.1 (getChannel_isSome h table)
    simp [hasChannel, hfound]
  get := getChannel_isSome h
  put alloc table channel hid := putChannel_isSome (hid ▸ h) alloc table
  pop := popChannel_isSome h
  requestDestruction := requestChannelDestruction_isSome h

end

/-! ### Accepted request lines -/

/-- Every result of `p` satisfies `Q`. -/
def ParseM.Ensures {α : Type} (p : ParseM α) (Q : α → Prop) : Prop :=
  ∀ n a n', p.run n = .ok (a, n') → Q a

namespace ParseM.Ensures

variable {α β : Type} {Q : β → Prop}

theorem pure {b : β} (h : Q b) : (Pure.pure b : ParseM β).Ensures Q := by
  intro n a n' ha
  simp only [StateT.run_pure] at ha
  cases ha
  exact h

theorem throw (e : ErrorCode) : (MonadExcept.throw e : ParseM β).Ensures Q := by
  intro n a n' ha
  cases ha

theorem bind {p : ParseM α} {f : α → ParseM β} (h : ∀ a, (f a).Ensures Q) :
    (p >>= f).Ensures Q := by
  intro n b n' hb
  simp only [StateT.run_bind] at hb
  cases hp : p.run n with
  | error e => rw [hp] at hb; cases hb
  | ok r => rw [hp] at hb; exact h r.1 r.2 b n' hb

end ParseM.Ensures

/-- The identifier of an accepted request is the one its first four characters stand for. -/
theorem parseLine_ensures (alloc : ℕ → Bool) (line : ℕ → UInt8) (length : ℕ) :
    (parseLine alloc line length).Ensures fun request =>
      request.channelId = stringToChannelId line ∧ stringToChannelId line ≠ badChannelId := by
  unfold parseLine
  split_ifs with h1 h2 h3 hbad <;> try exact .throw _
  refine .bind fun _ => .bind fun _ => .bind fun _ => .bind fun _ => .pure ?_
  exact ⟨rfl, hbad⟩

theorem channelId_of_parseRequest {alloc : ℕ → Bool} {line : ℕ → UInt8} {length : ℤ}
    {request : Request} (h : parseRequest alloc (some line) length = .ok request) :
    request.channelId = stringToChannelId line ∧ stringToChannelId line ≠ badChannelId := by
  simp only [parseRequest] at h
  split_ifs at h with hlen
  simp only [StateT.run', Functor.map, Except.map] at h
  cases hp : parseLine alloc line length.toNat 0 with
  | error e => rw [hp] at h; cases h
  | ok r =>
    rw [hp] at h
    cases h
    exact parseLine_ensures alloc line length.toNat 0 r.1 r.2 hp

/-- **An accepted request line keeps the table in bounds exactly if its channel name precedes
`6l4`.**  For every accepted line, all operations on the requested identifier stay inside the
arrays of the table (and the two addresses are below their limits) iff the first three
characters precede `6l4` in the order `a`-`z`, `A`-`Z`, `0`-`9`. -/
theorem accepted_request_in_bounds_iff (alloc : ℕ → Bool) (line : ℕ → UInt8) (length : ℤ)
    (request : Request) (h : parseRequest alloc (some line) length = .ok request) :
    ((channelTableAddress request.channelId).toNat < channelsNumSubtables ∧
        (channelSubtableAddress request.channelId).toNat < channelsSegment ∧
        OperationsInBounds request.channelId) ↔
      PrecedesLimit line := by
  obtain ⟨hid, hbad⟩ := channelId_of_parseRequest h
  rw [hid, ← inRange_iff_precedesLimit hbad]
  constructor
  · rintro ⟨h1, h2, -⟩
    exact ⟨h1, h2⟩
  · intro hr
    exact ⟨hr.1, hr.2, operationsInBounds_of_inRange hr⟩

/-- The memory that starts with a text and is zeroed behind it. -/
def memoryOf (s : String) : ℕ → UInt8 := fun i => (bytes s).getD i 0

theorem accepted_request_in_bounds_iff_abcd :
    ((channelTableAddress 4227).toNat < channelsNumSubtables ∧
        (channelSubtableAddress 4227).toNat < channelsSegment ∧ OperationsInBounds 4227) ↔
      PrecedesLimit (memoryOf "abcd TERM") :=
  accepted_request_in_bounds_iff (fun _ => true) (memoryOf "abcd TERM") 9
    ⟨4227, bytes "TERM", [], []⟩ (by decide)

/-- The line `9999 TERM` is accepted, and the sub-table it asks for is behind the end of the
table: looking the channel up reads outside the array. -/
theorem accepted_request_9999_out_of_bounds :
    ∃ request, parseRequest (fun _ => true) (some (memoryOf "9999 TERM")) 9 = .ok request ∧
      ¬ (channelTableAddress request.channelId).toNat < channelsNumSubtables ∧
      getChannel (some .empty) request.channelId = none :=
  ⟨⟨16244605, bytes "TERM", [], []⟩, by decide, by decide, by decide⟩

end XprcServer
