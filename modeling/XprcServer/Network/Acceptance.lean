import XprcServer.Network.Addresses

/-!
# Which texts are IPv6 addresses

`is_ipv6_address` accepts the addresses in their notation, and texts with fewer than eight groups
from which nothing was left out (`isIpv6Address_exact_iff`).

What the parser does in memory is said by a second version of it, in which every read of the text
and every assignment to one of the two arrays is checked (`parseIpv6AddressIn`): it never fails, and
yields what the parser yields (`parseIpv6AddressIn_eq`).
-/

namespace XprcServer

/-! ### The parser in memory -/

/-- A character of a string that ends with its terminator -/
def readChar (s : List UInt8) (i : ℕ) : Access UInt8 :=
  if i ≤ s.length then some (s.getD i 0) else none

/-- A character ahead is read only if there is one in front of it. -/
def readAhead (s : List UInt8) (ch : UInt8) (i : ℕ) : Access UInt8 :=
  if ch = 0 then some 0 else readChar s i

/-- `parse_ipv6_segment` behind the check of the length, from the character `start` on -/
def readSegment (s : List UInt8) : ℕ → ℕ → UInt16 → Access (Option UInt16)
  | _, 0, segment => some (some segment)
  | start, length + 1, segment => do
    let ch ← readChar s start
    match segmentDigit segment ch with
    | none => return none
    | some segment => readSegment s (start + 1) length segment

/-- `parse_ipv6_segment` of `length` characters from `start` on -/
def parseIpv6SegmentIn (s : List UInt8) (start length : ℕ) : Access (Option UInt16) :=
  if length < 1 ∨ 4 < length then some none else readSegment s start length 0

/-- A segment goes to the first unused place of an array of eight. -/
def storeSegment (segments : List UInt16) (segment : UInt16) : Access (List UInt16) :=
  if segments.length < 8 then some (segments ++ [segment]) else none

/-- A segment is recorded, in front of the placeholder or behind it. -/
def Ipv6Scan.recordIn (scan : Ipv6Scan) (segment : UInt16) : Access Ipv6Scan :=
  if scan.expand then do
    let rearSegments ← storeSegment scan.rearSegments segment
    return { scan with rearSegments }
  else do
    let frontSegments ← storeSegment scan.frontSegments segment
    return { scan with frontSegments }

/-- The loop of `parse_ipv6_address`; it fails if it does not end in the given number of passes. -/
def ipv6LoopIn (s : List UInt8) : ℕ → Ipv6Scan → Access (Option (Ipv6Scan × Bool))
  | 0, _ => none
  | fuel + 1, scan =>
    if scan.frontSegments.length < 8 ∧ scan.rearSegments.length < 8 then do
      let ch ← readChar s scan.i
      let i := scan.i + 1
      let lookahead1 ← readAhead s ch i
      let lookahead2 ← readAhead s lookahead1 (i + 1)
      if isHexDigit ch then ipv6LoopIn s fuel { scan with i := i }
      else if ch = 0 ∨ ch = groupSeparator then do
        match ← parseIpv6SegmentIn s scan.segmentStart (i - scan.segmentStart - 1) with
        | none => return none
        | some segment => do
          let recorded ← scan.recordIn segment
          let scan := { recorded with i := i, segmentStart := i }
          if lookahead1 = groupSeparator then
            if scan.expand then return none
            else
              let scan := { scan with expand := true, i := i + 1, segmentStart := i + 1 }
              if lookahead2 = 0 then return some (scan, true) else ipv6LoopIn s fuel scan
          else if lookahead1 = 0 ∧ ch ≠ groupSeparator then return some (scan, true)
          else ipv6LoopIn s fuel scan
      else ipv6LoopIn s fuel { scan with i := i }
    else return some (scan, false)

/-- `parse_ipv6_address`; there is a pass for every character at most, and one for the
terminator. -/
def parseIpv6AddressIn (s : List UInt8) : Access (Option (List UInt16)) :=
  if strnEq s [groupSeparator, groupSeparator] 2 ∧ s.length = 2 then
    return finalizeIpv6 (List.replicate 8 0) [] false
  else do
    let start := if strnEq s [groupSeparator, groupSeparator] 2 then 2 else 0
    match ← ipv6LoopIn s (s.length + 1) ⟨start, start, [], [], start == 2⟩ with
    | none => return none
    | some (_, false) => return none
    | some (scan, true) => return finalizeIpv6 scan.frontSegments scan.rearSegments scan.expand

/-! ### Nothing is accessed out of bounds -/

section

variable {s : List UInt8}

theorem readChar_eq {i : ℕ} (h : i ≤ s.length) : readChar s i = some (s.getD i 0) := if_pos h

theorem getD_of_lt {i : ℕ} (h : i < s.length) : s.getD i 0 = s[i] := by
  rw [List.getD_eq_getElem?_getD, List.getElem?_eq_getElem h, Option.getD_some]

/-- The terminator is the only NUL. -/
theorem lt_length_of_getD_ne {i : ℕ} (h : s.getD i 0 ≠ 0) : i < s.length := by
  by_contra hge
  rw [List.getD_eq_getElem?_getD, List.getElem?_eq_none (Nat.not_lt.1 hge), Option.getD_none] at h
  exact h rfl

theorem readAhead_eq {i : ℕ} (h : s.getD i 0 ≠ 0 → i + 1 ≤ s.length) {ch : UInt8}
    (hch : ch ≠ 0 → s.getD i 0 ≠ 0) :
    readAhead s ch (i + 1) = some (if ch = 0 then 0 else s.getD (i + 1) 0) := by
  unfold readAhead
  split_ifs with hzero
  · rfl
  · exact readChar_eq (h (hch hzero))

theorem readSegment_eq {start length : ℕ} (h : start + length ≤ s.length) (segment : UInt16) :
    readSegment s start length segment =
      some (((s.drop start).take length).foldlM segmentDigit segment) := by
  induction length generalizing start segment with
  | zero => simp [readSegment]
  | succ length ih =>
    have hlt : start < s.length := by omega
    have hdrop : s.drop start = s[start] :: s.drop (start + 1) := List.drop_eq_getElem_cons hlt
    rw [readSegment, readChar_eq (Nat.le_of_lt hlt), getD_of_lt hlt, hdrop,
      List.take_succ_cons, List.foldlM_cons]
    cases hdigit : segmentDigit segment s[start] with
    | none => simp [hdigit]
    | some segment' =>
      have hrest := @ih (start + 1) (by omega) segment'
      simpa [hdigit] using hrest

theorem parseIpv6SegmentIn_eq {start length : ℕ} (h : start + length ≤ s.length) :
    parseIpv6SegmentIn s start length = some (parseIpv6Segment (s.drop start) length) := by
  unfold parseIpv6SegmentIn parseIpv6Segment
  split_ifs
  · rfl
  · exact readSegment_eq h 0

theorem recordIn_eq {scan : Ipv6Scan}
    (h : scan.frontSegments.length < 8 ∧ scan.rearSegments.length < 8) (segment : UInt16) :
    scan.recordIn segment = some (scan.record segment) := by
  unfold Ipv6Scan.recordIn Ipv6Scan.record storeSegment
  rw [if_pos h.1, if_pos h.2]
  split_ifs <;> rfl

/-- The loop reads no further than the terminator, stores no ninth segment, and ends. -/
theorem ipv6LoopIn_eq {fuel : ℕ} (scan : Ipv6Scan) (hstart : scan.segmentStart ≤ scan.i)
    (hi : scan.i ≤ s.length) (hfuel : s.length < scan.i + fuel) :
    ipv6LoopIn s fuel scan = some (ipv6Loop s fuel scan) := by
  induction fuel generalizing scan with
  | zero => omega
  | succ fuel ih =>
    rw [ipv6LoopIn, ipv6Loop]
    by_cases hroom : scan.frontSegments.length < 8 ∧ scan.rearSegments.length < 8
    swap
    · rw [if_neg hroom, if_neg hroom]
      rfl
    rw [if_pos hroom, if_pos hroom, readChar_eq hi, Option.bind_eq_bind, Option.bind_some]
    have hlt : s.getD scan.i 0 ≠ 0 → scan.i + 1 ≤ s.length := lt_length_of_getD_ne
    set ch := s.getD scan.i 0
    -- the characters ahead are read only if no terminator stands before them
    have hahead1 : readAhead s ch (scan.i + 1) =
        some (if ch = 0 then 0 else s.getD (scan.i + 1) 0) := readAhead_eq hlt id
    dsimp only
    rw [hahead1, Option.bind_eq_bind, Option.bind_some]
    set lookahead1 := if ch = 0 then 0 else s.getD (scan.i + 1) 0 with hlookahead1
    have hne1 : lookahead1 ≠ 0 → s.getD (scan.i + 1) 0 ≠ 0 := by
      rw [hlookahead1]
      split_ifs with hch
      · exact fun hne => absurd rfl hne
      · exact id
    have hlt1 : lookahead1 ≠ 0 → scan.i + 1 < s.length := fun hne => lt_length_of_getD_ne (hne1 hne)
    have hahead2 : readAhead s lookahead1 (scan.i + 1 + 1) =
        some (if lookahead1 = 0 then 0 else s.getD (scan.i + 1 + 1) 0) :=
      readAhead_eq lt_length_of_getD_ne hne1
    rw [hahead2, Option.bind_eq_bind, Option.bind_some]
    set lookahead2 := if lookahead1 = 0 then 0 else s.getD (scan.i + 1 + 1) 0
    have hnext : ch ≠ 0 → ipv6LoopIn s fuel { scan with i := scan.i + 1 } =
        some (ipv6Loop s fuel { scan with i := scan.i + 1 }) := fun hne =>
      ih { scan with i := scan.i + 1 } (Nat.le_succ_of_le hstart) (hlt hne)
        (by dsimp only; omega)
    by_cases hdigit : isHexDigit ch = true
    · rw [if_pos hdigit, if_pos hdigit]
      refine hnext fun hzero => ?_
      rw [hzero] at hdigit
      exact absurd hdigit (by decide)
    rw [if_neg hdigit, if_neg hdigit]
    by_cases hend : ch = 0 ∨ ch = groupSeparator
    swap
    · rw [if_neg hend, if_neg hend]
      exact hnext fun hzero => hend (.inl hzero)
    have hlength : scan.segmentStart + (scan.i + 1 - scan.segmentStart - 1) ≤ s.length := by omega
    rw [if_pos hend, if_pos hend, parseIpv6SegmentIn_eq hlength, Option.bind_some]
    cases parseIpv6Segment (s.drop scan.segmentStart) (scan.i + 1 - scan.segmentStart - 1) with
    | none => rfl
    | some segment =>
      dsimp only
      rw [recordIn_eq hroom, Option.bind_some]
      set recorded := scan.record segment
      have hgo : ∀ (n : ℕ) expand, scan.i < n → n ≤ s.length →
          ipv6LoopIn s fuel { recorded with i := n, segmentStart := n, expand := expand } =
            some (ipv6Loop s fuel { recorded with i := n, segmentStart := n, expand := expand }) :=
        fun n expand hn hle => ih { recorded with i := n, segmentStart := n, expand := expand }
          (Nat.le_refl n) hle (by dsimp only; omega)
      by_cases hplaceholder : lookahead1 = groupSeparator
      · have hnext1 := hlt1 (by rw [hplaceholder]; decide)
        rw [if_pos hplaceholder, if_pos hplaceholder]
        split_ifs
        · rfl
        · rfl
        · exact hgo (scan.i + 2) true (by omega) (by omega)
      · rw [if_neg hplaceholder, if_neg hplaceholder]
        by_cases hcomplete : lookahead1 = 0 ∧ ch ≠ groupSeparator
        · rw [if_pos hcomplete, if_pos hcomplete]
          rfl
        · rw [if_neg hcomplete, if_neg hcomplete]
          -- behind the terminator there is nothing ahead
          have hne : ch ≠ 0 := by
            intro hzero
            refine hcomplete ⟨?_, ?_⟩
            · rw [hlookahead1, if_pos hzero]
            · rw [hzero]
              decide
          exact hgo (scan.i + 1) recorded.expand (by omega) (hlt hne)

theorem two_le_length_of_strnEq (h : 0 ∉ s) (hstart : strnEq s [groupSeparator, groupSeparator] 2) :
    2 ≤ s.length := by
  rw [strnEq, cString_eq_self h, beq_iff_eq] at hstart
  have htake := congrArg List.length hstart
  have htwo : (List.take 2 (cString [groupSeparator, groupSeparator])).length = 2 := by decide
  rw [htwo, List.length_take] at htake
  omega

/-- **The parser stays within the text and within its arrays, and ends.** -/
theorem parseIpv6AddressIn_eq (h : 0 ∉ s) :
    parseIpv6AddressIn s = some (parseIpv6Address (some s)) := by
  unfold parseIpv6AddressIn parseIpv6Address
  dsimp only
  by_cases hboth : strnEq s [groupSeparator, groupSeparator] 2 ∧ s.length = 2
  · rw [if_pos hboth, if_pos hboth]
    rfl
  rw [if_neg hboth, if_neg hboth]
  set start := if strnEq s [groupSeparator, groupSeparator] 2 then 2 else 0 with hstart
  have hle : start ≤ s.length := by
    rw [hstart]
    split_ifs with htwo
    · exact two_le_length_of_strnEq h htwo
    · exact Nat.zero_le _
  rw [ipv6LoopIn_eq ⟨start, start, [], [], start == 2⟩ (Nat.le_refl start) hle
    (by dsimp only; omega), Option.bind_eq_bind, Option.bind_some]
  rcases ipv6Loop s (s.length + 1) ⟨start, start, [], [], start == 2⟩ with _ | ⟨scan, _ | _⟩ <;> rfl

end

/-! ### The texts that are accepted -/

/-- The text is an IPv6 address: eight groups, or at most seven and the placeholder once. -/
def IsIpv6Text (s : List UInt8) : Prop := ∃ n : Ipv6Notation, n.IsAddress ∧ n.text = s

/-- The text has groups, but fewer than eight, and nothing stands for those that are missing. -/
def MissesGroups (s : List UInt8) : Prop :=
  ∃ groups : List (List UInt8), groups ≠ [] ∧ groups.length < 8 ∧ (∀ g ∈ groups, IsGroup g) ∧
    s = [groupSeparator].intercalate groups

section

variable {s : List UInt8}

theorem isIpv6Address_eq (h : 0 ∉ s) : isIpv6Address (some s) = true ↔
    (Ipv6Notation.ofText s).Fits := by
  rw [isIpv6Address, parseIpv6Address_eq h, Ipv6Notation.segments]
  split_ifs with hfits <;> simp [hfits]

theorem isIpv6Text_iff : IsIpv6Text s ↔ (Ipv6Notation.ofText s).IsAddress := by
  constructor
  · rintro ⟨n, hn, htext⟩
    rwa [hn.ofText_eq htext]
  · exact fun hn => ⟨_, hn, Ipv6Notation.text_ofText s⟩

theorem missesGroups_iff : MissesGroups s ↔
    (Ipv6Notation.ofText s).Fits ∧ ¬ (Ipv6Notation.ofText s).IsAddress := by
  constructor
  · rintro ⟨groups, hne, hlt, hgroups, rfl⟩
    obtain ⟨g, rest, hcons⟩ := List.exists_cons_of_ne_nil hne
    have htext : (⟨groups, none⟩ : Ipv6Notation).text ≠ [] := by
      rw [Ipv6Notation.text]
      dsimp only
      rw [hcons, Ne, intercalate_eq_nil, ← hcons]
      intro hempty
      exact not_isGroup_nil (hgroups [] (by rw [hempty]; exact List.mem_singleton_self []))
    have hgroups' : ∀ g ∈ (⟨groups, none⟩ : Ipv6Notation).groups, IsGroup g := by
      simpa [Ipv6Notation.groups] using hgroups
    have hof : Ipv6Notation.ofText ([groupSeparator].intercalate groups) = ⟨groups, none⟩ :=
      Ipv6Notation.ofText_text hgroups' htext
    rw [hof]
    refine ⟨⟨hgroups', ?_⟩, fun haddress => ?_⟩
    · simp only [Ipv6Notation.groups, Option.getD_none, List.append_nil, Option.isSome_none]
      exact Nat.le_of_lt hlt
    · have height := haddress.2
      simp only [Ipv6Notation.groups, Option.getD_none, List.append_nil, Option.isSome_none,
        Bool.false_eq_true, if_false] at height
      omega
  · rintro ⟨⟨hgroups, hcount⟩, hnot⟩
    have htext := Ipv6Notation.text_ofText s
    have hfront := (Ipv6Notation.ofText s).front
    cases hrear : (Ipv6Notation.ofText s).rear with
    | some rear =>
      refine absurd ⟨hgroups, ?_⟩ hnot
      rw [hrear] at hcount ⊢
      simp only [Option.isSome_some, if_true] at hcount ⊢
      omega
    | none =>
      have hfront : (Ipv6Notation.ofText s).groups = (Ipv6Notation.ofText s).front := by
        rw [Ipv6Notation.groups, hrear, Option.getD_none, List.append_nil]
      rw [hfront] at hgroups
      rw [hfront, hrear] at hcount
      simp only [Option.isSome_none, Bool.false_eq_true, if_false] at hcount
      rw [Ipv6Notation.text, hrear] at htext
      refine ⟨_, fun hnil => ?_, ?_, hgroups, htext.symm⟩
      · -- the empty text has one group, which is empty
        rw [hnil] at htext
        obtain rfl : s = [] := htext.symm
        exact absurd hnil (by decide)
      · refine Nat.lt_of_le_of_ne hcount fun height => hnot ⟨by rw [hfront]; exact hgroups, ?_⟩
        rw [hrear, hfront]
        exact height

/-- **The parser is right about a text unless groups are missing from it without the placeholder.**
In any case it stays within the text and its arrays, and ends. -/
theorem isIpv6Address_exact_iff (h : 0 ∉ s) :
    ((isIpv6Address (some s) = true ↔ IsIpv6Text s) ∧
      parseIpv6AddressIn s = some (parseIpv6Address (some s))) ↔ ¬ MissesGroups s := by
  rw [isIpv6Address_eq h, isIpv6Text_iff, missesGroups_iff]
  constructor
  · rintro ⟨hexact, -⟩ ⟨hfits, hnot⟩
    exact hnot (hexact.1 hfits)
  · intro hnone
    refine ⟨⟨fun hfits => ?_, Ipv6Notation.IsAddress.fits⟩, parseIpv6AddressIn_eq h⟩
    by_contra hnot
    exact hnone ⟨hfits, hnot⟩

end

theorem isIpv6Address_exact_iff_one : ((isIpv6Address (some (bytes "::1")) = true ↔
      IsIpv6Text (bytes "::1")) ∧
    parseIpv6AddressIn (bytes "::1") = some (parseIpv6Address (some (bytes "::1")))) ↔
      ¬ MissesGroups (bytes "::1") :=
  isIpv6Address_exact_iff (by decide)

/-- Two groups are accepted, although six are missing. -/
theorem isIpv6Address_not_exact : isIpv6Address (some (bytes "1:2")) = true ∧
    ¬ (isIpv6Address (some (bytes "1:2")) = true ↔ IsIpv6Text (bytes "1:2")) := by
  have haccepted : isIpv6Address (some (bytes "1:2")) = true := by decide +kernel
  refine ⟨haccepted, fun hexact => ?_⟩
  have haddress := (isIpv6Text_iff.1 (hexact.1 haccepted)).2
  exact absurd haddress (by decide +kernel)

end XprcServer
