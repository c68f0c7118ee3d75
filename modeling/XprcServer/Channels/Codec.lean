import XprcServer.Channels.Bounds

/-!
# The codec of channel identifiers

`string_to_channel_id` packs four characters `[a-zA-Z0-9]` into an identifier and
`channel_id_to_string` unpacks them.  On the accepted names the two are inverse to each other.

* `stringToChannelId_ne_bad_iff` : which names are accepted;
* `channelIdToString_stringToChannelId` : unpacking gives the name back;
* `nameOf_eq_of_stringToChannelId_eq` : two accepted names never share an identifier.
-/

namespace XprcServer

/-- A character `[a-zA-Z0-9]`. -/
def IsAlphanumeric (ch : UInt8) : Prop :=
  (97 ≤ ch ∧ ch ≤ 122) ∨ (65 ≤ ch ∧ ch ≤ 90) ∨ (48 ≤ ch ∧ ch ≤ 57)

instance (ch : UInt8) : Decidable (IsAlphanumeric ch) := inferInstanceAs (Decidable (_ ∨ _))

/-- The first four characters of a text in memory. -/
def nameOf (s : ℕ → UInt8) : List UInt8 := (List.range 4).map s

/-! ### One character -/

theorem charToChannelIdSegment_eq_bad_iff {ch : UInt8} :
    charToChannelIdSegment ch = badChannelIdSegment ↔ ¬ IsAlphanumeric ch := by
  unfold charToChannelIdSegment IsAlphanumeric
  split_ifs with h1 h2 h3
  case neg => simp [h1, h2, h3]
  all_goals
    simp only [badChannelIdSegment, ← UInt8.toNat_inj, UInt8.le_iff_toNat_le, UInt8.toNat_add,
      UInt8.toNat_sub, UInt8.reduceToNat] at *
    omega

/-- The characters of an accepted name survive the way to their segment and back. -/
theorem channelIdSegmentToChar_charToChannelIdSegment {ch : UInt8} (h : IsAlphanumeric ch) :
    channelIdSegmentToChar (charToChannelIdSegment ch) = ch := by
  unfold IsAlphanumeric at h
  unfold channelIdSegmentToChar charToChannelIdSegment
  split_ifs
  all_goals
    simp only [← UInt8.toNat_inj, UInt8.le_iff_toNat_le, UInt8.lt_iff_toNat_lt, UInt8.toNat_add,
      UInt8.toNat_sub, UInt8.reduceToNat] at *
    omega

/-! ### Whole names -/

theorem alphanumeric_of_stringToChannelId {s : ℕ → UInt8} (h : stringToChannelId s ≠ badChannelId)
    (i : ℕ) (hi : i < 4) : IsAlphanumeric (s i) := by
  have := segment_ne_bad_of_stringToChannelId h i hi
  rwa [Ne, charToChannelIdSegment_eq_bad_iff, not_not] at this

/-- A name is accepted exactly if it consists of four characters `[a-zA-Z0-9]`. -/
theorem stringToChannelId_ne_bad_iff {s : ℕ → UInt8} :
    stringToChannelId s ≠ badChannelId ↔ ∀ i < 4, IsAlphanumeric (s i) := by
  refine ⟨alphanumeric_of_stringToChannelId, fun hall hbad => ?_⟩
  have hseg : ∀ i < 4, charToChannelIdSegment (s i) ≠ badChannelIdSegment := by
    intro i hi
    rw [Ne, charToChannelIdSegment_eq_bad_iff, not_not]
    exact hall i hi
  -- a packed name has 24 bits, the bad identifier 32
  have hpacked := stringToChannelId_packed hseg
  have b0 : segmentAt s 0 < 62 := charToChannelIdSegment_lt (hseg 0 (by omega))
  have b1 : segmentAt s 1 < 62 := charToChannelIdSegment_lt (hseg 1 (by omega))
  have b2 : segmentAt s 2 < 62 := charToChannelIdSegment_lt (hseg 2 (by omega))
  have b3 : segmentAt s 3 < 62 := charToChannelIdSegment_lt (hseg 3 (by omega))
  rw [hbad, show badChannelId.toNat = 4294967295 from rfl] at hpacked
  omega

theorem part_toNat (id k : UInt32) (hk : k.toNat < 32) :
    ((id >>> k) &&& 0b00111111).toUInt8.toNat = id.toNat / 2 ^ k.toNat % 64 := by
  rw [UInt32.toNat_toUInt8, UInt32.toNat_and, UInt32.toNat_shiftRight, Nat.mod_eq_of_lt hk,
    Nat.shiftRight_eq_div_pow]
  rw [show (0b00111111 : UInt32).toNat = 2 ^ 6 - 1 from rfl, Nat.and_two_pow_sub_one_eq_mod]
  omega

/-- **`channel_id_to_string` inverts `string_to_channel_id`** on the accepted names. -/
theorem channelIdToString_stringToChannelId {s : ℕ → UInt8}
    (h : stringToChannelId s ≠ badChannelId) :
    channelIdToString (stringToChannelId s) = nameOf s := by
  have hchar := fun i hi =>
    channelIdSegmentToChar_charToChannelIdSegment (alphanumeric_of_stringToChannelId h i hi)
  obtain ⟨hb, hpacked⟩ := stringToChannelId_toNat h
  have b1 := hb 1 (by omega)
  have b2 := hb 2 (by omega)
  have b3 := hb 3 (by omega)
  have b0 := hb 0 (by omega)
  -- the part that is shifted down by six times three less `i` is segment `i`
  have hpart : ∀ (i : ℕ) (k : UInt32), i < 4 → k.toNat < 32 →
      (stringToChannelId s).toNat / 2 ^ k.toNat % 64 = segmentAt s i →
      channelIdSegmentToChar ((stringToChannelId s >>> k) &&& 0b00111111).toUInt8 = s i := by
    intro i k hi hk heq
    rw [← part_toNat _ _ hk] at heq
    rw [UInt8.toNat_inj.1 (heq : _ = (charToChannelIdSegment (s i)).toNat)]
    exact hchar i hi
  have h0 := hpart 0 18 (by omega) (by decide) (by
    rw [hpacked, show (18 : UInt32).toNat = 18 from rfl]; omega)
  have h1 := hpart 1 12 (by omega) (by decide) (by
    rw [hpacked, show (12 : UInt32).toNat = 12 from rfl]; omega)
  have h2 := hpart 2 6 (by omega) (by decide) (by
    rw [hpacked, show (6 : UInt32).toNat = 6 from rfl]; omega)
  have h3 := hpart 3 0 (by omega) (by decide) (by
    rw [hpacked, show (0 : UInt32).toNat = 0 from rfl]; omega)
  rw [UInt32.shiftRight_zero] at h3
  simp only [channelIdToString, List.map_cons, List.map_nil, h0, h1, h2, h3]
  rfl

theorem nameOf_eq_of_stringToChannelId_eq {s t : ℕ → UInt8}
    (hs : stringToChannelId s ≠ badChannelId)
    (h : stringToChannelId s = stringToChannelId t) : nameOf s = nameOf t := by
  rw [← channelIdToString_stringToChannelId hs, h, channelIdToString_stringToChannelId (h ▸ hs)]

end XprcServer
