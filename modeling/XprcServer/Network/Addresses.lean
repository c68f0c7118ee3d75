import XprcServer.Protocol.Types

/-!
# IPv6 addresses

`network.c`: the text of an IPv6 address is read by one loop over its characters with a lookahead of
two.  Groups are collected in front of the placeholder `::` and behind it, and zeros fill the gap;
two addresses are compared group by group.

* `parseIpv6Address_eq` : which texts are accepted, and the groups that are read from them;
* `readsAddresses_iff` : these are the groups that the texts denote, and the comparison is that of
  the addresses, unless there are letters in a text (they count 0 to 5 where they stand for 10 to
  15), or fewer than eight groups without the placeholder (which is accepted, and denotes nothing).
-/

namespace XprcServer

/-! ### The parser -/

/-- `:` -/
def groupSeparator : UInt8 := 58

/-- The condition on a valid character in `parse_ipv6_address` -/
def isHexDigit (ch : UInt8) : Bool :=
  48 ≤ ch && ch ≤ 57 || 97 ≤ ch && ch ≤ 102 || 65 ≤ ch && ch ≤ 70

/-- One pass of the loop of `parse_ipv6_segment` -/
def segmentDigit (segment : UInt16) (ch : UInt8) : Option UInt16 :=
  if 48 ≤ ch ∧ ch ≤ 57 then some ((segment <<< 4) + (ch - 48).toUInt16)
  else if 97 ≤ ch ∧ ch ≤ 102 then some ((segment <<< 4) + (ch - 97).toUInt16)
  else if 65 ≤ ch ∧ ch ≤ 70 then some ((segment <<< 4) + (ch - 65).toUInt16)
  else none

/-- `parse_ipv6_segment` of the first `length` characters of `s` -/
def parseIpv6Segment (s : List UInt8) (length : ℕ) : Option UInt16 :=
  if length < 1 ∨ 4 < length then none else (s.take length).foldlM segmentDigit 0

/-- The variables of the loop of `parse_ipv6_address` -/
structure Ipv6Scan where
  i : ℕ
  segmentStart : ℕ
  frontSegments : List UInt16
  rearSegments : List UInt16
  expand : Bool
  deriving DecidableEq, Repr

/-- A segment is recorded, in front of the placeholder or behind it. -/
def Ipv6Scan.record (scan : Ipv6Scan) (segment : UInt16) : Ipv6Scan :=
  if scan.expand then { scan with rearSegments := scan.rearSegments ++ [segment] }
  else { scan with frontSegments := scan.frontSegments ++ [segment] }

/-- The loop of `parse_ipv6_address`: nothing if the function returns in it, otherwise the variables
behind the loop and whether the address is complete.  Every pass moves `i` forward, and none but the
last reads the terminator. -/
def ipv6Loop (s : List UInt8) : ℕ → Ipv6Scan → Option (Ipv6Scan × Bool)
  | 0, scan => some (scan, false)
  | fuel + 1, scan =>
    if scan.frontSegments.length < 8 ∧ scan.rearSegments.length < 8 then
      let ch := s.getD scan.i 0
      let i := scan.i + 1
      let lookahead1 := if ch = 0 then 0 else s.getD i 0
      let lookahead2 := if lookahead1 = 0 then 0 else s.getD (i + 1) 0
      if isHexDigit ch then ipv6Loop s fuel { scan with i := i }
      else if ch = 0 ∨ ch = groupSeparator then
        match parseIpv6Segment (s.drop scan.segmentStart) (i - scan.segmentStart - 1) with
        | none => none
        | some segment =>
          let scan := { scan.record segment with i := i, segmentStart := i }
          if lookahead1 = groupSeparator then
            if scan.expand then none -- the placeholder was already used
            else
              let scan := { scan with expand := true, i := i + 1, segmentStart := i + 1 }
              if lookahead2 = 0 then some (scan, true) else ipv6Loop s fuel scan
          else if lookahead1 = 0 ∧ ch ≠ groupSeparator then some (scan, true)
          else ipv6Loop s fuel scan
      else ipv6Loop s fuel { scan with i := i }
    else some (scan, false)

/-- The end of `parse_ipv6_address`, behind the label `finalize` -/
def finalizeIpv6 (frontSegments rearSegments : List UInt16) (expand : Bool) :
    Option (List UInt16) :=
  if 8 < frontSegments.length + rearSegments.length + (if expand then 1 else 0) then none
  else
    let numFill := 8 - frontSegments.length - rearSegments.length
    some (frontSegments ++ List.replicate numFill 0 ++ rearSegments)

/-- `parse_ipv6_address` -/
def parseIpv6Address : Option (List UInt8) → Option (List UInt16)
  | none => none
  | some s =>
    if strnEq s [groupSeparator, groupSeparator] 2 ∧ s.length = 2 then
      -- only the placeholder
      finalizeIpv6 (List.replicate 8 0) [] false
    else
      let start := if strnEq s [groupSeparator, groupSeparator] 2 then 2 else 0
      match ipv6Loop s (s.length + 1) ⟨start, start, [], [], start == 2⟩ with
      | none => none
      | some (_, false) => none
      | some (scan, true) => finalizeIpv6 scan.frontSegments scan.rearSegments scan.expand

/-- `is_ipv6_address` -/
def isIpv6Address (address : Option (List UInt8)) : Bool := (parseIpv6Address address).isSome

/-! ### The comparison -/

/-- `strcmp` -/
def strcmp : List UInt8 → List UInt8 → ℤ
  | [], [] => 0
  | [], b :: _ => -b.toNat
  | a :: _, [] => a.toNat
  | a :: s, b :: t => if a = b then strcmp s t else a.toNat - b.toNat

/-- The loop of `cmp_address` over segments -/
def cmpSegments : List UInt16 → List UInt16 → ℤ
  | a :: s, b :: t => if (a.toNat : ℤ) - b.toNat ≠ 0 then a.toNat - b.toNat else cmpSegments s t
  | _, _ => 0

/-- `cmp_address` of texts and of what was parsed from them -/
def cmpAddress (a b : Option (List UInt8)) (segmentsA segmentsB : Option (List UInt16)) : ℤ :=
  match segmentsA, segmentsB with
  | some segmentsA, some segmentsB => cmpSegments segmentsA segmentsB
  | none, none =>
    match a, b with
    | none, none => 0
    | none, some _ => -1
    | some _, none => 1
    | some a, some b => strcmp a b
  | none, some _ => -1
  | some _, none => 1

/-- `cmp_ipv6_address` -/
def cmpIpv6Address (a b : Option (List UInt8)) : ℤ :=
  cmpAddress a b (parseIpv6Address a) (parseIpv6Address b)

/-! ### Segments -/

/-- `a` to `f` in either case -/
def isLetter (ch : UInt8) : Bool := 97 ≤ ch && ch ≤ 102 || 65 ≤ ch && ch ≤ 70

/-- What a hexadecimal digit stands for. -/
def hexValue (ch : UInt8) : ℕ :=
  if ch ≤ 57 then ch.toNat - 48 else if 97 ≤ ch then ch.toNat - 97 + 10 else ch.toNat - 65 + 10

/-- What `parse_ipv6_segment` takes a hexadecimal digit for. -/
def segmentValue (ch : UInt8) : ℕ :=
  if ch ≤ 57 then ch.toNat - 48 else if 97 ≤ ch then ch.toNat - 97 else ch.toNat - 65

/-- One to four hexadecimal digits. -/
def IsGroup (g : List UInt8) : Prop := (1 ≤ g.length ∧ g.length ≤ 4) ∧ ∀ ch ∈ g, isHexDigit ch

instance (g : List UInt8) : Decidable (IsGroup g) :=
  decidable_of_iff ((1 ≤ g.length ∧ g.length ≤ 4) ∧ g.all isHexDigit = true)
    (and_congr_right fun _ => List.all_eq_true)

/-- The number that is written by the digits of a group. -/
def groupValue (digit : UInt8 → ℕ) (g : List UInt8) : ℕ := g.foldl (fun v ch => 16 * v + digit ch) 0

theorem IsGroup.ne_nil {g : List UInt8} (h : IsGroup g) : g ≠ [] :=
  List.ne_nil_of_length_pos h.1.1

theorem IsGroup.not_mem {g : List UInt8} (h : IsGroup g) : 0 ∉ g ∧ groupSeparator ∉ g :=
  ⟨fun h0 => absurd (h.2 _ h0) (by decide), fun hsep => absurd (h.2 _ hsep) (by decide)⟩

theorem segmentDigit_eq (v : ℕ) {ch : UInt8} (h : isHexDigit ch) :
    segmentDigit (UInt16.ofNat v) ch = some (UInt16.ofNat (16 * v + segmentValue ch)) := by
  have hshift : UInt16.ofNat v <<< 4 = UInt16.ofNat (16 * v) := by
    apply UInt16.toNat_inj.1
    simp only [UInt16.toNat_shiftLeft, UInt16.toNat_ofNat', Nat.shiftLeft_eq, UInt16.reduceToNat,
      Nat.reduceMod, Nat.reducePow]
    omega
  simp only [isHexDigit, Bool.or_eq_true, Bool.and_eq_true, decide_eq_true_eq,
    UInt8.le_iff_toNat_le, UInt8.reduceToNat] at h
  have hadd : ∀ k : UInt8, k.toNat ≤ ch.toNat → (UInt16.ofNat v <<< 4) + (ch - k).toUInt16 =
      UInt16.ofNat (16 * v + (ch.toNat - k.toNat)) := by
    intro k hk
    rw [hshift, UInt16.ofNat_add]
    congr 1
    apply UInt16.toNat_inj.1
    rw [UInt8.toNat_toUInt16, UInt8.toNat_sub_of_le _ _ (UInt8.le_iff_toNat_le.2 hk),
      UInt16.toNat_ofNat_of_lt' (by have := ch.toNat_lt; simp [UInt16.size]; omega)]
  simp only [segmentDigit, segmentValue, UInt8.le_iff_toNat_le, UInt8.reduceToNat]
  rcases h with (h | h) | h
  · rw [if_pos h, if_pos h.2, hadd 48 h.1]
    rfl
  · rw [if_neg (by omega), if_pos h, if_neg (by omega), if_pos h.1, hadd 97 h.1]
    rfl
  · rw [if_neg (by omega), if_neg (by omega), if_pos h, if_neg (by omega), if_neg (by omega),
      hadd 65 h.1]
    rfl

theorem segmentDigit_none {segment : UInt16} {ch : UInt8} (h : ¬ isHexDigit ch) :
    segmentDigit segment ch = none := by
  simp only [isHexDigit, Bool.or_eq_true, Bool.and_eq_true, decide_eq_true_eq] at h
  rw [segmentDigit, if_neg (by tauto), if_neg (by tauto), if_neg (by tauto)]

theorem foldlM_segmentDigit (g : List UInt8) (v : ℕ) :
    g.foldlM segmentDigit (UInt16.ofNat v) =
      if g.all isHexDigit then
        some (UInt16.ofNat (g.foldl (fun v ch => 16 * v + segmentValue ch) v))
      else none := by
  induction g generalizing v with
  | nil => simp
  | cons ch g ih =>
    by_cases hch : isHexDigit ch
    · simp only [List.foldlM_cons, segmentDigit_eq v hch, Option.bind_eq_bind, Option.bind_some, ih,
        List.all_cons, hch, Bool.true_and, List.foldl_cons]
    · simp [segmentDigit_none hch, hch]

/-- The number that `parse_ipv6_segment` stores for a group. -/
def segmentOf (g : List UInt8) : UInt16 := UInt16.ofNat (groupValue segmentValue g)

/-- **What `parse_ipv6_segment` does**: exactly the groups are read. -/
theorem parseIpv6Segment_append (g rest : List UInt8) :
    parseIpv6Segment (g ++ rest) g.length = if IsGroup g then some (segmentOf g) else none := by
  rw [parseIpv6Segment, List.take_left' rfl]
  by_cases hlen : 1 ≤ g.length ∧ g.length ≤ 4
  · rw [if_neg (by omega), show (0 : UInt16) = UInt16.ofNat 0 from rfl, foldlM_segmentDigit]
    by_cases hall : g.all isHexDigit = true
    · rw [if_pos hall, if_pos ⟨hlen, List.all_eq_true.1 hall⟩]
      rfl
    · rw [if_neg hall, if_neg fun hg => hall (List.all_eq_true.2 hg.2)]
  · rw [if_pos (by omega), if_neg fun hg => hlen hg.1]

/-! ### The loop -/

/-- An address in the notation with colons: the groups in front of the placeholder and, if there is
one, those behind it. -/
structure Ipv6Notation where
  front : List (List UInt8)
  rear : Option (List (List UInt8))
  deriving DecidableEq, Repr

namespace Ipv6Notation

/-- How the address is written. -/
def text (n : Ipv6Notation) : List UInt8 :=
  match n.rear with
  | none => [groupSeparator].intercalate n.front
  | some rear => [groupSeparator].intercalate n.front ++ groupSeparator :: groupSeparator ::
      [groupSeparator].intercalate rear

/-- All groups that are written. -/
def groups (n : Ipv6Notation) : List (List UInt8) := n.front ++ n.rear.getD []

/-- The groups in front, zeros for those that are missing, the groups behind. -/
def fill {α : Type} (zero : α) (value : List UInt8 → α) (n : Ipv6Notation) : List α :=
  n.front.map value ++ List.replicate (8 - n.groups.length) zero ++ (n.rear.getD []).map value

/-- Nothing but groups, and not too many. -/
def Fits (n : Ipv6Notation) : Prop :=
  (∀ g ∈ n.groups, IsGroup g) ∧ n.groups.length + (if n.rear.isSome then 1 else 0) ≤ 8

instance (n : Ipv6Notation) : Decidable n.Fits := by unfold Fits; infer_instance

/-- What `parse_ipv6_address` yields for an address. -/
def segments (n : Ipv6Notation) : Option (List UInt16) :=
  if n.Fits then some (n.fill 0 segmentOf) else none

theorem segments_eq_none {n : Ipv6Notation} {g : List UInt8} (hg : g ∈ n.groups)
    (h : ¬ IsGroup g) : n.segments = none := by
  rw [segments, if_neg fun hfits => h (hfits.1 g hg)]

theorem segments_eq_none_of_length {n : Ipv6Notation}
    (h : 8 < n.groups.length + (if n.rear.isSome then 1 else 0)) : n.segments = none := by
  rw [segments, if_neg fun hfits => absurd hfits.2 (by omega)]

theorem finalizeIpv6_eq {n : Ipv6Notation} (h : ∀ g ∈ n.groups, IsGroup g) :
    finalizeIpv6 (n.front.map segmentOf) ((n.rear.getD []).map segmentOf) n.rear.isSome =
      n.segments := by
  have hlen : n.groups.length = n.front.length + (n.rear.getD []).length := by simp [groups]
  by_cases hfits : n.groups.length + (if n.rear.isSome then 1 else 0) ≤ 8
  · rw [finalizeIpv6, if_neg (by simp only [List.length_map]; omega), segments, if_pos ⟨h, hfits⟩,
      fill]
    simp only [List.length_map, hlen, Nat.sub_sub]
  · rw [finalizeIpv6, if_pos (by simp only [List.length_map]; omega),
      segments_eq_none_of_length (by omega)]

end Ipv6Notation

/-- What `parse_ipv6_address` does behind its loop. -/
def finishIpv6 : Option (Ipv6Scan × Bool) → Option (List UInt16)
  | some (scan, true) => finalizeIpv6 scan.frontSegments scan.rearSegments scan.expand
  | _ => none

theorem getD_of_drop {s rest : List UInt8} {i : ℕ} (h : s.drop i = rest) (k : ℕ) :
    s.getD (i + k) 0 = rest.getD k 0 := by
  rw [← h, List.getD_eq_getElem?_getD, List.getD_eq_getElem?_getD, List.getElem?_drop]

/-- The characters of a piece are passed one by one, whatever they are. -/
theorem ipv6Loop_skip {s piece rest : List UInt8} {scan : Ipv6Scan}
    (hdrop : s.drop scan.i = piece ++ rest) (h : 0 ∉ piece ∧ groupSeparator ∉ piece)
    (hroom : scan.frontSegments.length < 8 ∧ scan.rearSegments.length < 8) (fuel : ℕ) :
    ipv6Loop s (piece.length + fuel) scan =
      ipv6Loop s fuel { scan with i := scan.i + piece.length } := by
  induction piece generalizing scan with
  | nil => simp
  | cons ch piece ih =>
    obtain ⟨⟨hch0, hpiece0⟩, hch, hpiece⟩ : (ch ≠ 0 ∧ 0 ∉ piece) ∧
        ch ≠ groupSeparator ∧ groupSeparator ∉ piece := by
      simpa [eq_comm] using h
    have hget : s.getD scan.i 0 = ch := getD_of_drop hdrop 0
    have hnext : s.drop (scan.i + 1) = piece ++ rest := by
      rw [← List.drop_drop, hdrop]
      rfl
    have hgo : ipv6Loop s (piece.length + fuel) { scan with i := scan.i + 1 } =
        ipv6Loop s fuel { scan with i := scan.i + 1 + piece.length } :=
      ih hnext ⟨hpiece0, hpiece⟩ hroom
    rw [List.length_cons, show piece.length + 1 + fuel = (piece.length + fuel) + 1 by omega,
      ipv6Loop, if_pos hroom]
    simp only [hget]
    rw [if_neg (show ¬ (ch = 0 ∨ ch = groupSeparator) by tauto), ite_self, hgo]
    simp only [Nat.add_assoc, Nat.add_comm 1]

section Steps

variable {s piece rest : List UInt8} {scan : Ipv6Scan}

/-- The end of the text ends the last group. -/
theorem ipv6Loop_end (hdrop : s.drop scan.i = piece) (h : 0 ∉ piece ∧ groupSeparator ∉ piece)
    (hroom : scan.frontSegments.length < 8 ∧ scan.rearSegments.length < 8)
    (hstart : scan.segmentStart = scan.i) (fuel : ℕ) :
    finishIpv6 (ipv6Loop s (piece.length + (fuel + 1)) scan) =
      if IsGroup piece then finishIpv6 (some (scan.record (segmentOf piece), true)) else none := by
  have hget : s.getD (scan.i + piece.length) 0 = 0 := by
    rw [getD_of_drop hdrop]
    simp
  have hsegment := parseIpv6Segment_append piece []
  rw [List.append_nil] at hsegment
  rw [ipv6Loop_skip (by rw [hdrop, List.append_nil]) h hroom, ipv6Loop, if_pos hroom]
  simp only [hget, if_true, show isHexDigit 0 = false by decide, Bool.false_eq_true, if_false,
    true_or, hstart, hdrop, show scan.i + piece.length + 1 - scan.i - 1 = piece.length by omega,
    hsegment]
  by_cases hg : IsGroup piece
  · simp only [if_pos hg, show (0 : UInt8) ≠ groupSeparator by decide, if_false, true_and,
      ne_eq, not_false_eq_true, if_true, finishIpv6, Ipv6Scan.record]
    cases scan.expand <;> rfl
  · simp only [if_neg hg, finishIpv6]

/-- A separator with something else behind it ends a group. -/
theorem ipv6Loop_separator (hdrop : s.drop scan.i = piece ++ groupSeparator :: rest)
    (h : 0 ∉ piece ∧ groupSeparator ∉ piece) (hrest : rest.head? ≠ some groupSeparator)
    (hroom : scan.frontSegments.length < 8 ∧ scan.rearSegments.length < 8)
    (hstart : scan.segmentStart = scan.i) (fuel : ℕ) :
    finishIpv6 (ipv6Loop s (piece.length + (fuel + 1)) scan) =
      if IsGroup piece then
        finishIpv6 (ipv6Loop s fuel { scan.record (segmentOf piece) with
          i := scan.i + piece.length + 1, segmentStart := scan.i + piece.length + 1 })
      else none := by
  have hget : s.getD (scan.i + piece.length) 0 = groupSeparator := by
    rw [getD_of_drop hdrop]
    simp
  have hahead : s.getD (scan.i + piece.length + 1) 0 ≠ groupSeparator := by
    rw [Nat.add_assoc, getD_of_drop hdrop]
    cases rest with
    | nil => simp [groupSeparator]
    | cons ch rest => simpa using hrest
  rw [ipv6Loop_skip hdrop h hroom, ipv6Loop, if_pos hroom]
  simp only [hget, show isHexDigit groupSeparator = false by decide, Bool.false_eq_true, if_false,
    show groupSeparator ≠ 0 by decide, or_true, if_true, hstart, hdrop, hahead, ne_eq, not_true,
    and_false, show scan.i + piece.length + 1 - scan.i - 1 = piece.length by omega,
    parseIpv6Segment_append]
  by_cases hg : IsGroup piece
  · simp only [if_pos hg, Ipv6Scan.record]
    cases scan.expand <;> rfl
  · simp only [if_neg hg, finishIpv6]

/-- Two separators end a group and are the placeholder, which is there but once. -/
theorem ipv6Loop_placeholder
    (hdrop : s.drop scan.i = piece ++ groupSeparator :: groupSeparator :: rest)
    (h : 0 ∉ piece ∧ groupSeparator ∉ piece) (h0 : 0 ∉ rest)
    (hroom : scan.frontSegments.length < 8 ∧ scan.rearSegments.length < 8)
    (hstart : scan.segmentStart = scan.i) (fuel : ℕ) :
    finishIpv6 (ipv6Loop s (piece.length + (fuel + 1)) scan) =
      if IsGroup piece ∧ scan.expand = false then
        if rest = [] then finishIpv6 (some ({ scan.record (segmentOf piece) with expand := true },
          true))
        else finishIpv6 (ipv6Loop s fuel { scan.record (segmentOf piece) with
          expand := true, i := scan.i + piece.length + 2
          segmentStart := scan.i + piece.length + 2 })
      else none := by
  have hget : s.getD (scan.i + piece.length) 0 = groupSeparator := by
    rw [getD_of_drop hdrop]
    simp
  have hahead : s.getD (scan.i + piece.length + 1) 0 = groupSeparator := by
    rw [Nat.add_assoc, getD_of_drop hdrop]
    simp
  have hbehind : s.getD (scan.i + piece.length + 1 + 1) 0 = 0 ↔ rest = [] := by
    rw [Nat.add_assoc, Nat.add_assoc, getD_of_drop hdrop]
    cases rest with
    | nil => simp
    | cons ch rest =>
      simp only [List.mem_cons, not_or] at h0
      simpa using Ne.symm h0.1
  rw [ipv6Loop_skip hdrop h hroom, ipv6Loop, if_pos hroom]
  simp only [hget, show isHexDigit groupSeparator = false by decide, Bool.false_eq_true, if_false,
    show groupSeparator ≠ 0 by decide, or_true, if_true, hstart, hdrop, hahead,
    show scan.i + piece.length + 1 - scan.i - 1 = piece.length by omega,
    parseIpv6Segment_append]
  by_cases hg : IsGroup piece
  · cases hexpand : scan.expand with
    | true => simp [hg, finishIpv6, Ipv6Scan.record]
    | false =>
      simp only [hg, if_true, Ipv6Scan.record, hexpand, Bool.false_eq_true, if_false, and_self,
        hbehind]
      by_cases hend : rest = []
      · simp only [if_pos hend]
        rfl
      · simp only [if_neg hend]
  · simp [hg, finishIpv6]

/-- Without room for another group the loop ends too early. -/
theorem ipv6Loop_full
    (h : ¬ (scan.frontSegments.length < 8 ∧ scan.rearSegments.length < 8)) (fuel : ℕ) :
    finishIpv6 (ipv6Loop s fuel scan) = none := by
  cases fuel with
  | zero => rfl
  | succ fuel => rw [ipv6Loop, if_neg h, finishIpv6]; simp

end Steps

/-! ### Reading an address -/

namespace Ipv6Notation

/-- What is written by pieces with separators between them. -/
def ofPieces : List (List UInt8) → Ipv6Notation
  | [] => ⟨[], none⟩
  | piece :: [] :: next :: pieces =>
    ⟨[piece], some (if next :: pieces = [[]] then [] else next :: pieces)⟩
  | piece :: pieces => ⟨piece :: (ofPieces pieces).front, (ofPieces pieces).rear⟩

/-- What is written by a text. -/
def ofText (s : List UInt8) : Ipv6Notation :=
  if s = [groupSeparator, groupSeparator] then ⟨[], some []⟩
  else if s.take 2 = [groupSeparator, groupSeparator] then
    ⟨[], some ((s.drop 2).splitOn groupSeparator)⟩
  else ofPieces (s.splitOn groupSeparator)

theorem ofPieces_singleton (piece : List UInt8) : ofPieces [piece] = ⟨[piece], none⟩ := by
  rw [ofPieces, ofPieces]
  · simp

theorem ofPieces_cons {piece : List UInt8} {pieces : List (List UInt8)}
    (h : pieces.head? ≠ some [] ∨ pieces.length ≤ 1) :
    ofPieces (piece :: pieces) = ⟨piece :: (ofPieces pieces).front, (ofPieces pieces).rear⟩ := by
  rw [ofPieces]
  rintro next rest rfl
  simp at h

end Ipv6Notation

theorem intercalate_cons {piece : List UInt8} {pieces : List (List UInt8)} (h : pieces ≠ []) :
    [groupSeparator].intercalate (piece :: pieces) =
      piece ++ groupSeparator :: [groupSeparator].intercalate pieces := by
  rw [List.intercalate_cons_of_ne_nil h]
  simp

/-- A separator comes first only where a piece is empty and others follow it. -/
theorem head?_intercalate {piece : List UInt8} (h : groupSeparator ∉ piece)
    (pieces : List (List UInt8)) :
    ([groupSeparator].intercalate (piece :: pieces)).head? = some groupSeparator ↔
      piece = [] ∧ pieces ≠ [] := by
  cases piece with
  | nil =>
    cases pieces with
    | nil => simp
    | cons next pieces => simp
  | cons ch piece =>
    have hch : ch ≠ groupSeparator := fun heq => h (by simp [heq])
    cases pieces with
    | nil => simpa using hch
    | cons next pieces => simpa [intercalate_cons] using hch

theorem intercalate_eq_nil {piece : List UInt8} {pieces : List (List UInt8)} :
    [groupSeparator].intercalate (piece :: pieces) = [] ↔ piece :: pieces = [[]] := by
  cases pieces with
  | nil => simp
  | cons next pieces => simp

theorem not_isGroup_nil : ¬ IsGroup [] := by decide

theorem drop_piece {s piece tail : List UInt8} {i : ℕ} (h : s.drop i = piece ++ tail) (k : ℕ) :
    s.drop (i + piece.length + k) = tail.drop k := by
  rw [Nat.add_assoc, ← List.drop_drop, h, List.drop_append]
  simp

theorem ipv6Loop_rear {s : List UInt8} (hs : 0 ∉ s) {front pieces : List (List UInt8)}
    (hfront : ∀ g ∈ front, IsGroup g) (hlen : front.length < 8) (hpieces : pieces ≠ [])
    (hfree : ∀ piece ∈ pieces, groupSeparator ∉ piece) (rear : List (List UInt8))
    (hrear : ∀ g ∈ rear, IsGroup g) {i : ℕ}
    (hdrop : s.drop i = [groupSeparator].intercalate pieces) (fuel : ℕ)
    (hfuel : ([groupSeparator].intercalate pieces).length < fuel) :
    finishIpv6 (ipv6Loop s fuel ⟨i, i, front.map segmentOf, rear.map segmentOf, true⟩) =
      (Ipv6Notation.mk front (some (rear ++ pieces))).segments := by
  induction pieces generalizing rear i fuel with
  | nil => exact absurd rfl hpieces
  | cons piece pieces ih =>
    by_cases hroom : rear.length < 8
    case neg =>
      rw [ipv6Loop_full (by simp; omega), Ipv6Notation.segments_eq_none_of_length]
      simp [Ipv6Notation.groups]
      omega
    have hs' : 0 ∉ [groupSeparator].intercalate (piece :: pieces) :=
      fun h0 => hs (List.mem_of_mem_drop (hdrop ▸ h0))
    have hroom' : (front.map segmentOf).length < 8 ∧ (rear.map segmentOf).length < 8 := by
      simpa using ⟨hlen, hroom⟩
    have hbad : ¬ IsGroup piece →
        (Ipv6Notation.mk front (some (rear ++ piece :: pieces))).segments = none :=
      Ipv6Notation.segments_eq_none (by simp [Ipv6Notation.groups])
    have hpiece := hfree piece (by simp)
    cases pieces with
    | nil =>
      -- the last piece
      rw [List.intercalate_singleton] at hdrop hs' hfuel
      obtain ⟨fuel, rfl⟩ : ∃ k, fuel = piece.length + (k + 1) := ⟨fuel - piece.length - 1, by omega⟩
      rw [ipv6Loop_end hdrop ⟨hs', hpiece⟩ hroom' rfl]
      by_cases hg : IsGroup piece
      · rw [if_pos hg, ← Ipv6Notation.finalizeIpv6_eq]
        · simp [finishIpv6, Ipv6Scan.record]
        · simp only [Ipv6Notation.groups, Option.getD_some, List.forall_mem_append]
          exact ⟨hfront, hrear, by simpa using hg⟩
      · rw [if_neg hg, hbad hg]
    | cons next pieces =>
      rw [intercalate_cons (by simp)] at hdrop hs' hfuel
      rw [List.length_append, List.length_cons] at hfuel
      obtain ⟨fuel, rfl⟩ : ∃ k, fuel = piece.length + (k + 1) := ⟨fuel - piece.length - 1, by omega⟩
      simp only [List.mem_append, List.mem_cons, not_or] at hs'
      by_cases hnext : next = [] ∧ pieces ≠ []
      · -- a second placeholder
        obtain ⟨rfl, hne⟩ := hnext
        rw [intercalate_cons hne, List.nil_append] at hdrop hs'
        simp only [List.mem_cons, not_or] at hs'
        rw [ipv6Loop_placeholder hdrop ⟨hs'.1, hpiece⟩ hs'.2.2.2 hroom' rfl, if_neg (by simp),
          Ipv6Notation.segments_eq_none (g := []) (by simp [Ipv6Notation.groups]) not_isGroup_nil]
      · rw [ipv6Loop_separator hdrop ⟨hs'.1, hpiece⟩
          (fun hhead => hnext ((head?_intercalate (hfree next (by simp)) pieces).1 hhead))
            hroom' rfl]
        by_cases hg : IsGroup piece
        · rw [if_pos hg]
          have hdrop' : s.drop (i + piece.length + 1) =
              [groupSeparator].intercalate (next :: pieces) := drop_piece hdrop 1
          have hgo := ih (by simp) (fun p hp => hfree p (by simp [hp])) (rear ++ [piece])
            (List.forall_mem_append.2 ⟨hrear, by simpa using hg⟩) hdrop' fuel (by omega)
          simpa [Ipv6Scan.record] using hgo
        · rw [if_neg hg, hbad hg]

theorem ipv6Loop_front {s : List UInt8} (hs : 0 ∉ s) {pieces : List (List UInt8)}
    (hpieces : pieces ≠ []) (hfree : ∀ piece ∈ pieces, groupSeparator ∉ piece)
    (front : List (List UInt8)) (hfront : ∀ g ∈ front, IsGroup g) {i : ℕ}
    (hdrop : s.drop i = [groupSeparator].intercalate pieces) (fuel : ℕ)
    (hfuel : ([groupSeparator].intercalate pieces).length < fuel) :
    finishIpv6 (ipv6Loop s fuel ⟨i, i, front.map segmentOf, [], false⟩) =
      (Ipv6Notation.mk (front ++ (Ipv6Notation.ofPieces pieces).front)
        (Ipv6Notation.ofPieces pieces).rear).segments := by
  induction pieces generalizing front i fuel with
  | nil => exact absurd rfl hpieces
  | cons piece pieces ih =>
    have hmem : piece ∈ (Ipv6Notation.ofPieces (piece :: pieces)).front := by
      rw [Ipv6Notation.ofPieces.eq_def]
      split <;> simp_all
    have hpiece := hfree piece (by simp)
    by_cases hroom : front.length < 8
    case neg =>
      rw [ipv6Loop_full (by simp; omega), Ipv6Notation.segments_eq_none_of_length]
      have := List.length_pos_of_mem hmem
      simp only [Ipv6Notation.groups, List.length_append]
      omega
    have hs' : 0 ∉ [groupSeparator].intercalate (piece :: pieces) :=
      fun h0 => hs (List.mem_of_mem_drop (hdrop ▸ h0))
    have hroom' : (front.map segmentOf).length < 8 ∧ ([] : List UInt16).length < 8 := by
      simpa using hroom
    have hbad : ¬ IsGroup piece → (Ipv6Notation.mk
        (front ++ (Ipv6Notation.ofPieces (piece :: pieces)).front)
        (Ipv6Notation.ofPieces (piece :: pieces)).rear).segments = none :=
      Ipv6Notation.segments_eq_none (by simp [Ipv6Notation.groups, hmem])
    cases pieces with
    | nil =>
      rw [List.intercalate_singleton] at hdrop hs' hfuel
      obtain ⟨fuel, rfl⟩ : ∃ k, fuel = piece.length + (k + 1) := ⟨fuel - piece.length - 1, by omega⟩
      rw [ipv6Loop_end hdrop ⟨hs', hpiece⟩ hroom' rfl]
      by_cases hg : IsGroup piece
      · rw [if_pos hg, Ipv6Notation.ofPieces_singleton, ← Ipv6Notation.finalizeIpv6_eq]
        · simp [finishIpv6, Ipv6Scan.record]
        · simp only [Ipv6Notation.groups, Option.getD_none, List.forall_mem_append]
          exact ⟨⟨hfront, by simpa using hg⟩, by simp⟩
      · rw [if_neg hg, hbad hg]
    | cons next pieces =>
      rw [intercalate_cons (by simp)] at hdrop hs' hfuel
      rw [List.length_append, List.length_cons] at hfuel
      obtain ⟨fuel, rfl⟩ : ∃ k, fuel = piece.length + (k + 1) := ⟨fuel - piece.length - 1, by omega⟩
      simp only [List.mem_append, List.mem_cons, not_or] at hs'
      by_cases hnext : next = [] ∧ pieces ≠ []
      · -- the placeholder
        obtain ⟨rfl, hne⟩ := hnext
        obtain ⟨behind, pieces, rfl⟩ := List.exists_cons_of_ne_nil hne
        rw [intercalate_cons hne, List.nil_append] at hdrop hs' hfuel
        simp only [List.mem_cons, not_or] at hs'
        rw [ipv6Loop_placeholder hdrop ⟨hs'.1, hpiece⟩ hs'.2.2.2 hroom' rfl]
        by_cases hg : IsGroup piece
        case neg => rw [if_neg fun h => hg h.1, hbad hg]
        have hfront' : ∀ g ∈ front ++ [piece], IsGroup g :=
          List.forall_mem_append.2 ⟨hfront, by simpa using hg⟩
        rw [if_pos ⟨hg, rfl⟩, Ipv6Notation.ofPieces]
        by_cases hend : behind :: pieces = [[]]
        · rw [if_pos (intercalate_eq_nil.2 hend), if_pos hend, ← Ipv6Notation.finalizeIpv6_eq]
          · simp [finishIpv6, Ipv6Scan.record]
          · simpa [Ipv6Notation.groups] using hfront'
        · rw [if_neg (mt intercalate_eq_nil.1 hend), if_neg hend]
          by_cases hmore : (front ++ [piece]).length < 8
          · have hdrop' : s.drop (i + piece.length + 2) =
                [groupSeparator].intercalate (behind :: pieces) := drop_piece hdrop 2
            have hgo := ipv6Loop_rear hs hfront' hmore hne
              (fun p hp => hfree p (by simp at hp ⊢; tauto)) [] (by simp) hdrop' fuel
              (by simp only [List.length_cons] at hfuel; omega)
            simpa [Ipv6Scan.record] using hgo
          · rw [ipv6Loop_full (by simpa [Ipv6Scan.record] using hmore),
              Ipv6Notation.segments_eq_none_of_length]
            simp only [Ipv6Notation.groups, List.length_append] at hmore ⊢
            simp only [Option.isSome_some, if_true]
            omega
      · have hhead := mt (head?_intercalate (hfree next (by simp)) pieces).1 hnext
        rw [ipv6Loop_separator hdrop ⟨hs'.1, hpiece⟩ hhead hroom' rfl]
        by_cases hg : IsGroup piece
        case neg => rw [if_neg hg, hbad hg]
        have hfront' : ∀ g ∈ front ++ [piece], IsGroup g :=
          List.forall_mem_append.2 ⟨hfront, by simpa using hg⟩
        have hdrop' : s.drop (i + piece.length + 1) =
            [groupSeparator].intercalate (next :: pieces) := drop_piece hdrop 1
        have hgo := ih (by simp) (fun p hp => hfree p (by simp [hp])) (front ++ [piece]) hfront'
          hdrop' fuel (by omega)
        rw [if_pos hg, Ipv6Notation.ofPieces_cons (by simp; tauto)]
        simpa [Ipv6Scan.record] using hgo

namespace Ipv6Notation

theorem text_ofPieces {pieces : List (List UInt8)} (h : pieces ≠ []) :
    (ofPieces pieces).front ≠ [] ∧ (ofPieces pieces).text =
      [groupSeparator].intercalate pieces := by
  fun_induction ofPieces pieces with
  | case1 => exact absurd rfl h
  | case2 piece next pieces =>
    refine ⟨by simp, ?_⟩
    rw [intercalate_cons (by simp), intercalate_cons (by simp), List.nil_append]
    by_cases hend : next :: pieces = [[]]
    · rw [if_pos hend, hend]
      simp [text]
    · rw [if_neg hend]
      simp [text]
  | case3 piece pieces hnot ih =>
    refine ⟨by simp, ?_⟩
    cases hpieces : pieces with
    | nil => simp [text, ofPieces]
    | cons next rest =>
      obtain ⟨hfront, htext⟩ := ih (by simp [hpieces])
      rw [intercalate_cons (by simp), ← hpieces, ← htext]
      cases hrear : (ofPieces pieces).rear with
      | none => simp only [text, hrear, intercalate_cons hfront]
      | some rear => simp [text, hrear, intercalate_cons hfront]

theorem text_ofText (s : List UInt8) : (ofText s).text = s := by
  rw [ofText]
  by_cases hboth : s = [groupSeparator, groupSeparator]
  · rw [if_pos hboth, hboth]
    rfl
  · rw [if_neg hboth]
    by_cases htake : s.take 2 = [groupSeparator, groupSeparator]
    · rw [if_pos htake]
      simp only [text, List.intercalate_splitOn, List.intercalate_nil, List.nil_append]
      conv_rhs => rw [← List.take_append_drop 2 s, htake]
      rfl
    · rw [if_neg htake, (text_ofPieces (List.splitOn_ne_nil groupSeparator s)).2,
        List.intercalate_splitOn]

/-- The pieces of the groups on one side of the placeholder. -/
def sidePieces (groups : List (List UInt8)) : List (List UInt8) :=
  if groups = [] then [[]] else groups

theorem splitOn_intercalate {groups : List (List UInt8)} (h : ∀ g ∈ groups, IsGroup g) :
    ([groupSeparator].intercalate groups).splitOn groupSeparator = sidePieces groups := by
  by_cases hgroups : groups = []
  · simp [hgroups, sidePieces]
  · rw [List.splitOn_intercalate groupSeparator (fun g hg => (h g hg).not_mem.2) hgroups,
      sidePieces, if_neg hgroups]

theorem ofPieces_front {front : List (List UInt8)} (h : ∀ g ∈ front, IsGroup g) :
    ofPieces front = ⟨front, none⟩ := by
  induction front with
  | nil => rfl
  | cons g front ih =>
    have hfront : ∀ g ∈ front, IsGroup g := fun g hg => h g (by simp [hg])
    rw [ofPieces_cons, ih hfront]
    refine .inl fun hhead => ?_
    exact not_isGroup_nil (hfront [] (List.mem_of_head? hhead))

theorem ofPieces_placeholder {front rear : List (List UInt8)} (h : ∀ g ∈ front, IsGroup g)
    (hne : front ≠ []) (hrear : ∀ g ∈ rear, IsGroup g) :
    ofPieces (front ++ [] :: sidePieces rear) = ⟨front, some rear⟩ := by
  induction front with
  | nil => exact absurd rfl hne
  | cons g front ih =>
    cases front with
    | nil =>
      cases rear with
      | nil => rfl
      | cons next rear =>
        have hnext : next :: rear ≠ [[]] := by
          rintro heq
          exact not_isGroup_nil (hrear [] (by simp [heq]))
        simp only [List.cons_append, List.nil_append, sidePieces, List.cons_ne_nil, if_false,
          ofPieces, if_neg hnext]
    | cons next front =>
      have hfront : ∀ g ∈ next :: front, IsGroup g := fun g hg => h g (List.mem_cons_of_mem _ hg)
      rw [List.cons_append, ofPieces_cons, ih hfront (by simp)]
      refine .inl fun hhead => ?_
      exact not_isGroup_nil (hfront [] (List.mem_of_head? hhead))

/-- With a group in front, the text does not start with the placeholder. -/
theorem take_text_ne {n : Ipv6Notation} (h : ∀ g ∈ n.front, IsGroup g) (hne : n.front ≠ []) :
    n.text.take 2 ≠ [groupSeparator, groupSeparator] := by
  obtain ⟨g, front, hfront⟩ := List.exists_cons_of_ne_nil hne
  have hg : IsGroup g := h g (by simp [hfront])
  obtain ⟨ch, more, rfl⟩ := List.exists_cons_of_ne_nil hg.ne_nil
  have hch : ch ≠ groupSeparator := fun heq => hg.not_mem.2 (by simp [heq])
  have hhead : n.text.head? = some ch := by
    rw [text, hfront]
    cases n.rear <;> cases front <;> simp
  intro htake
  have htake0 := congrArg List.head? htake
  rw [List.head?_take, if_neg (by decide), hhead] at htake0
  exact hch (Option.some.inj htake0)

theorem ofText_text {n : Ipv6Notation} (h : ∀ g ∈ n.groups, IsGroup g) (hne : n.text ≠ []) :
    ofText n.text = n := by
  obtain ⟨hfront, hrear⟩ := List.forall_mem_append.1 h
  by_cases hempty : n.front = []
  · cases hr : n.rear with
    | none => simp [text, hr, hempty] at hne
    | some rear =>
      rw [hr, Option.getD_some] at hrear
      have htext : n.text = groupSeparator :: groupSeparator ::
          [groupSeparator].intercalate rear := by
        simp [text, hr, hempty]
      obtain rfl : n = ⟨[], some rear⟩ := by cases n; simp_all
      rw [ofText, htext]
      cases rear with
      | nil => rfl
      | cons g rear =>
        have hg : g :: rear ≠ [[]] := fun heq => not_isGroup_nil (hrear [] (by simp [heq]))
        rw [if_neg (by simpa using mt intercalate_eq_nil.1 hg), if_pos (by simp),
          List.drop_succ_cons, List.drop_succ_cons, List.drop_zero, splitOn_intercalate hrear]
        rfl
  · have htake := take_text_ne hfront hempty
    have hboth : n.text ≠ [groupSeparator, groupSeparator] := fun heq => htake (by rw [heq]; rfl)
    rw [ofText, if_neg hboth, if_neg htake]
    have hside : sidePieces n.front = n.front := if_neg hempty
    cases hr : n.rear with
    | none =>
      rw [text, hr]
      dsimp only
      rw [splitOn_intercalate hfront, hside, ofPieces_front hfront, ← hr]
    | some rear =>
      rw [hr, Option.getD_some] at hrear
      rw [text, hr]
      dsimp only
      rw [List.splitOn_append_cons_self, splitOn_intercalate hfront, hside,
        show groupSeparator :: [groupSeparator].intercalate rear =
          [] ++ groupSeparator :: [groupSeparator].intercalate rear from rfl,
        List.splitOn_append_cons_self, splitOn_intercalate hrear, List.splitOn_nil,
        List.singleton_append, ofPieces_placeholder hfront hempty hrear, ← hr]

end Ipv6Notation

/-- **What `parse_ipv6_address` yields** for a string. -/
theorem parseIpv6Address_eq {s : List UInt8} (h : 0 ∉ s) :
    parseIpv6Address (some s) = (Ipv6Notation.ofText s).segments := by
  have hstart : (strnEq s [groupSeparator, groupSeparator] 2 = true) ↔
      s.take 2 = [groupSeparator, groupSeparator] := by
    rw [strnEq, cString_eq_self h, cString_eq_self (by decide), beq_iff_eq]
    simp
  simp only [parseIpv6Address, Ipv6Notation.ofText, hstart]
  by_cases hboth : s = [groupSeparator, groupSeparator]
  · subst hboth
    decide +kernel
  have hlen : s.take 2 = [groupSeparator, groupSeparator] → s.length ≠ 2 := by
    intro htake h2
    rw [List.take_of_length_le (Nat.le_of_eq h2)] at htake
    exact hboth htake
  rw [if_neg (fun hs => hlen hs.1 hs.2), if_neg hboth]
  have hfinish : ∀ result, finishIpv6 result = match result with
      | none => none
      | some (_, false) => none
      | some (scan, true) =>
        finalizeIpv6 scan.frontSegments scan.rearSegments scan.expand := by
    rintro (_ | ⟨scan, _ | _⟩) <;> rfl
  rw [← hfinish]
  by_cases htake : s.take 2 = [groupSeparator, groupSeparator]
  · rw [if_pos htake, if_pos htake]
    exact ipv6Loop_rear h (List.forall_mem_nil IsGroup) (by simp)
      (List.splitOn_ne_nil groupSeparator (s.drop 2)) (fun _ => not_mem_of_mem_splitOn) [] (by simp)
      (List.intercalate_splitOn groupSeparator).symm (s.length + 1)
      (by rw [List.intercalate_splitOn, List.length_drop]; omega)
  · rw [if_neg htake, if_neg htake]
    exact ipv6Loop_front h (List.splitOn_ne_nil groupSeparator s)
      (fun _ => not_mem_of_mem_splitOn) [] (by simp)
      (by simp) (s.length + 1) (by simp)

/-! ### What an address denotes -/

namespace Ipv6Notation

/-- An address in its notation: eight groups, or fewer than eight and the placeholder. -/
def IsAddress (n : Ipv6Notation) : Prop :=
  (∀ g ∈ n.groups, IsGroup g) ∧
    if n.rear.isSome then n.groups.length < 8 else n.groups.length = 8

/-- The numbers of the eight groups, with the given values of the digits. -/
def numbers (digit : UInt8 → ℕ) (n : Ipv6Notation) : List ℕ := n.fill 0 (groupValue digit)

theorem IsAddress.fits {n : Ipv6Notation} (h : n.IsAddress) : n.Fits := by
  refine ⟨h.1, ?_⟩
  have h2 := h.2
  split_ifs at h2 ⊢ <;> omega

end Ipv6Notation

/-- The text denotes the address with these groups. -/
def Denotes (s : List UInt8) (groups : List ℕ) : Prop :=
  ∃ n : Ipv6Notation, n.IsAddress ∧ n.text = s ∧ n.numbers hexValue = groups

/-- The value of an address, the first group being the highest one. -/
def addressValue : List ℕ → ℕ
  | [] => 0
  | g :: groups => g * 65536 ^ groups.length + addressValue groups

theorem segmentValue_lt {ch : UInt8} (h : isHexDigit ch) : segmentValue ch < 16 := by
  simp only [isHexDigit, Bool.or_eq_true, Bool.and_eq_true, decide_eq_true_eq,
    UInt8.le_iff_toNat_le, UInt8.reduceToNat] at h
  simp only [segmentValue, UInt8.le_iff_toNat_le, UInt8.reduceToNat]
  split_ifs <;> omega

theorem foldl_lt {g : List UInt8} (h : ∀ ch ∈ g, isHexDigit ch) (v : ℕ) :
    g.foldl (fun v ch => 16 * v + segmentValue ch) v < (v + 1) * 16 ^ g.length := by
  induction g generalizing v with
  | nil => simp
  | cons ch g ih =>
    have hch := segmentValue_lt (h ch (by simp))
    calc _ < (16 * v + segmentValue ch + 1) * 16 ^ g.length :=
          ih (fun ch hch => h ch (by simp [hch])) _
      _ ≤ (16 * (v + 1)) * 16 ^ g.length := Nat.mul_le_mul_right _ (by omega)
      _ = (v + 1) * 16 ^ (ch :: g).length :=
        by rw [List.length_cons, Nat.pow_succ', ← Nat.mul_assoc, Nat.mul_comm 16]

theorem toNat_segmentOf {g : List UInt8} (h : IsGroup g) :
    (segmentOf g).toNat = groupValue segmentValue g := by
  have hlt := foldl_lt h.2 0
  have hpow : 16 ^ g.length ≤ 16 ^ 4 := Nat.pow_le_pow_right (by decide) h.1.2
  rw [segmentOf, UInt16.toNat_ofNat_of_lt']
  rw [groupValue]
  simp only [UInt16.size]
  omega

/-- Letters count ten less than they stand for. -/
theorem segmentValue_le (ch : UInt8) : segmentValue ch ≤ hexValue ch := by
  simp only [segmentValue, hexValue]
  split_ifs <;> omega

theorem segmentValue_eq_iff {ch : UInt8} (h : isHexDigit ch) :
    segmentValue ch = hexValue ch ↔ isLetter ch = false := by
  simp only [isHexDigit, Bool.or_eq_true, Bool.and_eq_true, decide_eq_true_eq] at h
  rw [← Bool.not_eq_true]
  simp only [segmentValue, hexValue, isLetter, Bool.or_eq_true, Bool.and_eq_true,
    decide_eq_true_eq, UInt8.le_iff_toNat_le, UInt8.reduceToNat] at h ⊢
  split_ifs <;> omega

theorem foldl_eq_iff {g : List UInt8} (h : ∀ ch ∈ g, isHexDigit ch) {v w : ℕ} (hvw : v ≤ w) :
    g.foldl (fun v ch => 16 * v + segmentValue ch) v =
      g.foldl (fun v ch => 16 * v + hexValue ch) w ↔
    v = w ∧ ∀ ch ∈ g, isLetter ch = false := by
  induction g generalizing v w with
  | nil => simp
  | cons ch g ih =>
    have hch := segmentValue_le ch
    have heq := segmentValue_eq_iff (h ch (by simp))
    rw [List.foldl_cons, List.foldl_cons, ih (fun ch hch => h ch (by simp [hch])) (by omega),
      List.forall_mem_cons, ← heq]
    constructor
    · rintro ⟨hnext, hletters⟩
      exact ⟨by omega, by omega, hletters⟩
    · rintro ⟨rfl, hdigit, hletters⟩
      exact ⟨by omega, hletters⟩

/-- A group is read as the number it denotes iff no letter is in it. -/
theorem groupValue_eq_iff {g : List UInt8} (h : IsGroup g) :
    groupValue segmentValue g = groupValue hexValue g ↔ ∀ ch ∈ g, isLetter ch = false := by
  rw [groupValue, groupValue, foldl_eq_iff h.2 (Nat.le_refl 0)]
  simp

/-! ### The value of an address -/

theorem addressValue_lt (groups : List UInt16) :
    addressValue (groups.map UInt16.toNat) < 65536 ^ groups.length := by
  induction groups with
  | nil => simp [addressValue]
  | cons g groups ih =>
    have hg : g.toNat + 1 ≤ 65536 := g.toNat_lt
    have hmul := Nat.mul_le_mul_right (65536 ^ groups.length) hg
    simp only [List.map_cons, addressValue, List.length_map, List.length_cons, Nat.pow_succ']
    rw [Nat.add_mul] at hmul
    omega

/-- The comparison by groups is the comparison of the values. -/
theorem sign_cmpSegments {a b : List UInt16} (h : a.length = b.length) :
    (cmpSegments a b).sign =
      ((addressValue (a.map UInt16.toNat) : ℤ) - addressValue (b.map UInt16.toNat)).sign := by
  induction a generalizing b with
  | nil =>
    obtain rfl := List.length_eq_zero_iff.1 h.symm
    rfl
  | cons g a ih =>
    cases b with
    | nil => simp at h
    | cons k b =>
      have hlen : a.length = b.length := by simpa using h
      have ha := addressValue_lt a
      have hb := addressValue_lt b
      rw [cmpSegments]
      simp only [List.map_cons, addressValue, List.length_map, hlen] at ha ⊢
      rcases Nat.lt_trichotomy g.toNat k.toNat with hgk | hgk | hgk
      · -- the first group decides
        have hmul := Nat.mul_le_mul_right (65536 ^ b.length) (Nat.succ_le_of_lt hgk)
        rw [Nat.succ_mul] at hmul
        rw [if_pos (by omega), Int.sign_eq_neg_one_of_neg (by omega),
          Int.sign_eq_neg_one_of_neg (by omega)]
      · rw [if_neg (by omega), ih hlen, hgk]
        congr 1
        omega
      · have hmul := Nat.mul_le_mul_right (65536 ^ b.length) (Nat.succ_le_of_lt hgk)
        rw [Nat.succ_mul] at hmul
        rw [if_pos (by omega), Int.sign_eq_one_of_pos (by omega),
          Int.sign_eq_one_of_pos (by omega)]

theorem cmpSegments_eq_zero_iff {a b : List UInt16} (h : a.length = b.length) :
    cmpSegments a b = 0 ↔ a = b := by
  induction a generalizing b with
  | nil => simp [cmpSegments, List.length_eq_zero_iff.1 h.symm]
  | cons g a ih =>
    cases b with
    | nil => simp at h
    | cons k b =>
      rw [cmpSegments, List.cons.injEq, ← UInt16.toNat_inj]
      by_cases hgk : g.toNat = k.toNat
      · rw [if_neg (by omega), ih (by simpa using h)]
        simp [hgk]
      · rw [if_pos (by omega)]
        omega

/-! ### Addresses that are read as what they denote -/

theorem forall_mem_intercalate {P : UInt8 → Prop} (h : P groupSeparator)
    (groups : List (List UInt8)) :
    (∀ ch ∈ [groupSeparator].intercalate groups, P ch) ↔ ∀ g ∈ groups, ∀ ch ∈ g, P ch := by
  induction groups with
  | nil => simp
  | cons g groups ih =>
    cases groups with
    | nil => simp
    | cons next groups =>
      rw [intercalate_cons (by simp), List.forall_mem_append, List.forall_mem_cons, ih]
      simp [h]

theorem count_intercalate {groups : List (List UInt8)} (h : ∀ g ∈ groups, IsGroup g) :
    ([groupSeparator].intercalate groups).count groupSeparator = groups.length - 1 := by
  induction groups with
  | nil => rfl
  | cons g groups ih =>
    have hg := List.count_eq_zero_of_not_mem (h g (by simp)).not_mem.2
    cases groups with
    | nil => simpa using hg
    | cons next groups =>
      rw [intercalate_cons (by simp), List.count_append, hg, List.count_cons_self,
        ih fun g hg => h g (List.mem_cons_of_mem _ hg)]
      simp

/-- No separator follows another one where nothing is left out. -/
theorem not_infix_intercalate {groups : List (List UInt8)} (h : ∀ g ∈ groups, IsGroup g) :
    ¬ [groupSeparator, groupSeparator] <:+: [groupSeparator].intercalate groups := by
  rintro ⟨x, y, heq⟩
  by_cases hgroups : groups = []
  · simp [hgroups] at heq
  have hsplit := congrArg (List.splitOn groupSeparator) heq
  rw [List.append_assoc, List.cons_append, List.splitOn_append_cons_self,
    show [groupSeparator] ++ y = [] ++ groupSeparator :: y from rfl, List.splitOn_append_cons_self,
    Ipv6Notation.splitOn_intercalate h, Ipv6Notation.sidePieces, if_neg hgroups,
    List.splitOn_nil] at hsplit
  exact not_isGroup_nil (h [] (by rw [← hsplit]; simp))

namespace Ipv6Notation

variable {n : Ipv6Notation}

theorem IsAddress.text_ne_nil (h : n.IsAddress) : n.text ≠ [] := by
  have hcount := h.2
  rw [text]
  cases hr : n.rear with
  | some rear => simp
  | none =>
    simp only [hr, Option.isSome_none, Bool.false_eq_true, if_false, groups, Option.getD_none,
      List.append_nil] at hcount
    obtain ⟨g, front, hfront⟩ := List.exists_cons_of_length_pos (l := n.front) (by omega)
    dsimp only
    rw [hfront, Ne, intercalate_eq_nil, ← hfront]
    intro heq
    simp [heq] at hcount

/-- A text has at most one notation. -/
theorem IsAddress.ofText_eq (h : n.IsAddress) {s : List UInt8}
    (hs : n.text = s) : ofText s = n := by
  rw [← hs]
  exact ofText_text h.1 h.text_ne_nil

theorem length_fill {α : Type} {zero : α} {value : List UInt8 → α} (h : n.Fits) :
    (n.fill zero value).length = 8 := by
  have hlen : n.groups.length = n.front.length + (n.rear.getD []).length := by simp [groups]
  have hcount := h.2
  simp only [fill, List.length_append, List.length_map, List.length_replicate]
  omega

theorem toNat_fill (h : n.Fits) :
    (n.fill 0 segmentOf).map UInt16.toNat = n.numbers segmentValue := by
  obtain ⟨hfront, hrear⟩ := List.forall_mem_append.1 h.1
  simp only [fill, numbers, List.map_append, List.map_map, List.map_replicate]
  congr 1
  · congr 1
    exact List.map_congr_left fun g hg => toNat_segmentOf (hfront g hg)
  · exact List.map_congr_left fun g hg => toNat_segmentOf (hrear g hg)

/-- The groups are read as the numbers they denote iff no letter is in the text. -/
theorem numbers_eq_iff (h : n.Fits) :
    n.numbers segmentValue = n.numbers hexValue ↔ ∀ ch ∈ n.text, isLetter ch = false := by
  have htext : (∀ ch ∈ n.text, isLetter ch = false) ↔
      ∀ g ∈ n.groups, ∀ ch ∈ g, isLetter ch = false := by
    have hsep : isLetter groupSeparator = false := by decide
    rw [text, groups]
    cases n.rear with
    | none => simpa using forall_mem_intercalate hsep n.front
    | some rear =>
      simp only [List.forall_mem_append, List.forall_mem_cons, hsep, true_and, Option.getD_some,
        forall_mem_intercalate (P := fun ch => isLetter ch = false) hsep]
  have hvalue : (∀ g ∈ n.groups, ∀ ch ∈ g, isLetter ch = false) ↔
      ∀ g ∈ n.groups, groupValue segmentValue g = groupValue hexValue g :=
    forall₂_congr fun g hg => (groupValue_eq_iff (h.1 g hg)).symm
  rw [htext, hvalue, numbers, numbers, fill, fill, groups, List.forall_mem_append]
  constructor
  · intro heq
    obtain ⟨hfront, hrear⟩ := List.append_inj' heq (by simp)
    exact ⟨List.map_inj_left.1 (List.append_inj_left' hfront (by simp)), List.map_inj_left.1 hrear⟩
  · rintro ⟨hfront, hrear⟩
    rw [List.map_congr_left hfront, List.map_congr_left hrear]

theorem isAddress_iff (h : n.Fits) :
    n.IsAddress ↔ [groupSeparator, groupSeparator] <:+: n.text ∨
    n.text.count groupSeparator = 7 := by
  obtain ⟨hgroups, hcount⟩ := h
  rw [IsAddress, text]
  cases hr : n.rear with
  | none =>
    simp only [groups, hr, Option.getD_none, List.append_nil, Option.isSome_none,
      Bool.false_eq_true, if_false] at hgroups hcount ⊢
    rw [count_intercalate hgroups]
    have hno := not_infix_intercalate hgroups
    constructor
    · rintro ⟨-, h8⟩
      exact .inr (by omega)
    · rintro (h2 | h7)
      · exact absurd h2 hno
      · exact ⟨hgroups, by omega⟩
  | some rear =>
    simp only [hr, Option.isSome_some, if_true] at hcount ⊢
    refine ⟨fun _ => .inl ⟨[groupSeparator].intercalate n.front,
      [groupSeparator].intercalate rear, by simp⟩, fun _ => ⟨hgroups, ?_⟩⟩
    omega

end Ipv6Notation

/-- The text denotes an address, and its groups are what `parse_ipv6_address` yields. -/
def ReadsAddress (s : List UInt8) (groups : List ℕ) : Prop :=
  Denotes s groups ∧ (parseIpv6Address (some s)).map (List.map UInt16.toNat) = some groups

/-- Both texts are read as the addresses they denote, and they are compared as their values are. -/
def ReadsAddresses (a b : List UInt8) : Prop :=
  ∃ groupsA groupsB, ReadsAddress a groupsA ∧ ReadsAddress b groupsB ∧
    (cmpIpv6Address (some a) (some b)).sign =
      ((addressValue groupsA : ℤ) - addressValue groupsB).sign ∧
    (cmpIpv6Address (some a) (some b) = 0 ↔ groupsA = groupsB)

/-- There are no letters in the text, and no groups are missing from it without the placeholder. -/
def PlainAddress (s : List UInt8) : Prop :=
  (∀ ch ∈ s, isLetter ch = false) ∧
    ([groupSeparator, groupSeparator] <:+: s ∨ s.count groupSeparator = 7)

/-- What is known about a text that is accepted. -/
theorem accepted_fits {s : List UInt8} (h : 0 ∉ s) (haccepted : isIpv6Address (some s)) :
    (Ipv6Notation.ofText s).Fits ∧
      parseIpv6Address (some s) = some ((Ipv6Notation.ofText s).fill 0 segmentOf) := by
  rw [isIpv6Address, parseIpv6Address_eq h, Ipv6Notation.segments] at haccepted
  rw [parseIpv6Address_eq h, Ipv6Notation.segments]
  split_ifs at haccepted ⊢ with hfits
  · exact ⟨hfits, rfl⟩
  · simp at haccepted

theorem readsAddress_iff {s : List UInt8} (h : 0 ∉ s) (haccepted : isIpv6Address (some s))
    (groups : List ℕ) : ReadsAddress s groups ↔
      PlainAddress s ∧ (Ipv6Notation.ofText s).numbers segmentValue = groups := by
  obtain ⟨hfits, hparse⟩ := accepted_fits h haccepted
  have htext := Ipv6Notation.text_ofText s
  have hletters := Ipv6Notation.numbers_eq_iff hfits
  have hcomplete := Ipv6Notation.isAddress_iff hfits
  rw [htext] at hletters hcomplete
  rw [ReadsAddress, hparse, Option.map_some, Ipv6Notation.toNat_fill hfits, Option.some.injEq,
    PlainAddress, ← hletters, ← hcomplete]
  constructor
  · rintro ⟨⟨n, hn, hs, rfl⟩, heq⟩
    obtain rfl := hn.ofText_eq hs
    exact ⟨⟨heq, hn⟩, heq⟩
  · rintro ⟨⟨heq, haddress⟩, rfl⟩
    exact ⟨⟨_, haddress, htext, heq.symm⟩, rfl⟩

/-- **Addresses are read and compared as what they denote iff they are plain.** For every two texts
that `is_ipv6_address` accepts. -/
theorem readsAddresses_iff {a b : List UInt8} (ha : 0 ∉ a) (hb : 0 ∉ b)
    (haccepted : isIpv6Address (some a)) (hbaccepted : isIpv6Address (some b)) :
    ReadsAddresses a b ↔ PlainAddress a ∧ PlainAddress b := by
  constructor
  · rintro ⟨groupsA, groupsB, hreadA, hreadB, -⟩
    exact ⟨((readsAddress_iff ha haccepted groupsA).1 hreadA).1,
      ((readsAddress_iff hb hbaccepted groupsB).1 hreadB).1⟩
  · rintro ⟨hplainA, hplainB⟩
    obtain ⟨hfitsA, hparseA⟩ := accepted_fits ha haccepted
    obtain ⟨hfitsB, hparseB⟩ := accepted_fits hb hbaccepted
    have hlength : ((Ipv6Notation.ofText a).fill 0 segmentOf).length =
        ((Ipv6Notation.ofText b).fill 0 segmentOf).length := by
      rw [Ipv6Notation.length_fill hfitsA, Ipv6Notation.length_fill hfitsB]
    refine ⟨_, _, (readsAddress_iff ha haccepted _).2 ⟨hplainA, rfl⟩,
      (readsAddress_iff hb hbaccepted _).2 ⟨hplainB, rfl⟩, ?_, ?_⟩
    · rw [cmpIpv6Address, hparseA, hparseB, cmpAddress, sign_cmpSegments hlength,
        Ipv6Notation.toNat_fill hfitsA, Ipv6Notation.toNat_fill hfitsB]
    · rw [cmpIpv6Address, hparseA, hparseB, cmpAddress, cmpSegments_eq_zero_iff hlength,
        ← Ipv6Notation.toNat_fill hfitsA, ← Ipv6Notation.toNat_fill hfitsB]
      exact (List.map_injective_iff.2 fun _ _ => UInt16.toNat_inj.1).eq_iff.symm

theorem readsAddresses_iff_one : ReadsAddresses (bytes "::1") (bytes "1::") ↔
    PlainAddress (bytes "::1") ∧ PlainAddress (bytes "1::") :=
  readsAddresses_iff (by decide) (by decide) (by decide +kernel) (by decide +kernel)

/-- The letter `a` counts nothing: the address is taken for that with zeros only. -/
theorem readsAddresses_fails_letter : isIpv6Address (some (bytes "::a")) ∧
    isIpv6Address (some (bytes "::")) ∧
    cmpIpv6Address (some (bytes "::a")) (some (bytes "::")) = 0 ∧
    ¬ ReadsAddresses (bytes "::a") (bytes "::") := by
  refine ⟨by decide +kernel, by decide +kernel, by decide +kernel, ?_⟩
  rintro ⟨groupsA, groupsB, hread, -⟩
  have hplain := ((readsAddress_iff (by decide) (by decide +kernel) groupsA).1 hread).1
  exact absurd (hplain.1 97 (by decide +kernel)) (by decide)

end XprcServer
