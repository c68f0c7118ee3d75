import XprcServer.Network.Addresses

/-!
# IPv4 addresses

`network.c`: the text of an IPv4 address is cut at its dots; every segment is then read by `atoi` on
what is left of the text, and the loop ends with the fourth segment.

* `parseIpv4Address_eq` : which texts are accepted, and the octets that are read from them;
* `cmpIpv4Address_quads` : two addresses are compared octet by octet.
-/

namespace XprcServer

/-! ### The parser -/

/-- `.` -/
def octetSeparator : UInt8 := 46

/-- `parse_ipv4_segment` -/
def parseIpv4Segment (lib : Library) (address : List UInt8) (start endExcl : ℕ) : Option UInt8 :=
  let segmentLength := endExcl - start
  if segmentLength < 1 ∨ 3 < segmentLength then none
  else
    let segment := atoi lib (address.drop start)
    if segment < 0 ∨ 255 < segment then none else some (UInt8.ofNat segment.toNat)

/-- The loop of `parse_ipv4_address`: nothing if the function returns in it, otherwise the complete
segments and whether the end of the text was reached.  `i` is moved forward in every pass but the
last. -/
def ipv4Loop (lib : Library) (address : List UInt8) : ℕ → ℕ → ℕ → List UInt8 →
    Option (List UInt8 × Bool)
  | 0, _, _, out => some (out, false)
  | fuel + 1, i, segmentStart, out =>
    if out.length < 4 then
      let ch := address.getD i 0
      if ch = 0 ∨ ch = octetSeparator then
        match parseIpv4Segment lib address segmentStart i with
        | none => none
        | some segment =>
          if ch = 0 then some (out ++ [segment], true)
          else ipv4Loop lib address fuel (i + 1) (i + 1) (out ++ [segment])
      else if ch < 48 ∨ 57 < ch then none -- not a digit
      else ipv4Loop lib address fuel (i + 1) segmentStart out
    else some (out, false)

/-- `parse_ipv4_address` behind its loop -/
def finishIpv4 : Option (List UInt8 × Bool) → Option (List UInt8)
  | none => none
  | some (out, complete) => if ¬ complete ∨ out.length ≠ 4 then none else some out

/-- `parse_ipv4_address` -/
def parseIpv4Address (lib : Library) : Option (List UInt8) → Option (List UInt8)
  | none => none
  | some address => finishIpv4 (ipv4Loop lib address (address.length + 1) 0 0 [])

/-- `is_ipv4_address` -/
def isIpv4Address (lib : Library) (address : Option (List UInt8)) : Bool :=
  (parseIpv4Address lib address).isSome

/-- `cmp_ipv4_address`; the segments are read by `read_ipv4_segment_int32`. -/
def cmpIpv4Address (lib : Library) (a b : Option (List UInt8)) : ℤ :=
  cmpAddress a b ((parseIpv4Address lib a).map (List.map UInt8.toUInt16))
    ((parseIpv4Address lib b).map (List.map UInt8.toUInt16))

/-! ### Segments -/

/-- The number that is written by a run of digits. -/
def runValue (run : List UInt8) : ℕ := run.foldl (fun value ch => 10 * value + (ch.toNat - 48)) 0

/-- One to three decimal digits with a value of at most 255. -/
def IsOctet (run : List UInt8) : Prop :=
  (1 ≤ run.length ∧ run.length ≤ 3) ∧ (∀ ch ∈ run, isDigit ch) ∧ runValue run ≤ 255

instance (run : List UInt8) : Decidable (IsOctet run) :=
  have : Decidable (∀ ch ∈ run, isDigit ch) := List.decidableBAll (fun ch => isDigit ch) run
  inferInstanceAs (Decidable (_ ∧ _ ∧ _))

/-- What `parse_ipv4_segment` stores for a run. -/
def octetOf (run : List UInt8) : UInt8 := UInt8.ofNat (runValue run)

theorem toNat_octetOf {run : List UInt8} (h : IsOctet run) : (octetOf run).toNat = runValue run :=
  UInt8.toNat_ofNat_of_lt' (Nat.lt_succ_of_le h.2.2)

theorem foldl_run_cast (run : List UInt8) (value : ℕ) :
    run.foldl (fun (value : ℤ) ch => 10 * value + (ch.toNat - 48 : ℕ)) value =
      (run.foldl (fun value ch => 10 * value + (ch.toNat - 48)) value : ℕ) := by
  induction run generalizing value with
  | nil => rfl
  | cons ch run ih =>
    rw [List.foldl_cons, List.foldl_cons, ← ih]
    push_cast
    rfl

theorem foldl_run_lt {run : List UInt8} (h : ∀ ch ∈ run, isDigit ch) (value : ℕ) :
    run.foldl (fun value ch => 10 * value + (ch.toNat - 48)) value <
      (value + 1) * 10 ^ run.length := by
  induction run generalizing value with
  | nil => simp
  | cons ch run ih =>
    have hch := (isDigit_iff ch).1 (h ch (by simp))
    calc _ < (10 * value + (ch.toNat - 48) + 1) * 10 ^ run.length :=
          ih (fun ch hch => h ch (by simp [hch])) _
      _ ≤ (10 * (value + 1)) * 10 ^ run.length := Nat.mul_le_mul_right _ (by omega)
      _ = (value + 1) * 10 ^ (ch :: run).length := by
          rw [List.length_cons, Nat.pow_succ', ← Nat.mul_assoc, Nat.mul_comm 10]

section

variable {run rest : List UInt8}

/-- The number at the start of a text, if that starts with a digit. -/
theorem textValue_run (hne : run ≠ []) (h : ∀ ch ∈ run, isDigit ch) (hrest : EndsDigits rest) :
    textValue (run ++ rest) = runValue run := by
  obtain ⟨ch, more, rfl⟩ := List.exists_cons_of_ne_nil hne
  have htake : (ch :: more ++ rest).takeWhile isDigit = ch :: more := by
    rw [List.takeWhile_append_of_pos fun c hc => h c hc]
    cases rest with
    | nil => simp
    | cons c rest => simp [hrest c rfl]
  have hch := (isDigit_iff ch).1 (h ch List.mem_cons_self)
  have hspace : isSpace ch = false := by
    simp only [isSpace, Bool.or_eq_false_iff, decide_eq_false_iff_not, Bool.and_eq_false_iff,
      UInt8.le_iff_toNat_le, ← UInt8.toNat_inj, UInt8.reduceToNat]
    omega
  have hdrop : (ch :: more ++ rest).dropWhile isSpace = ch :: more ++ rest := by
    rw [List.cons_append, List.dropWhile_cons, hspace]
    rfl
  rw [textValue, hdrop]
  split
  · rename_i heq
    rw [(List.cons.inj heq).1] at hch
    exact absurd hch (by decide)
  · rename_i heq
    rw [(List.cons.inj heq).1] at hch
    exact absurd hch (by decide)
  · rw [digitsValue, htake]
    exact foldl_run_cast _ 0

/-- **What `parse_ipv4_segment` does**: of all runs of digits, exactly the octets are read. -/
theorem parseIpv4Segment_eq (lib : Library) {address : List UInt8} {start : ℕ}
    (hdrop : address.drop start = run ++ rest) (h : ∀ ch ∈ run, isDigit ch)
    (hrest : EndsDigits rest) :
    parseIpv4Segment lib address start (start + run.length) =
      if IsOctet run then some (octetOf run) else none := by
  rw [parseIpv4Segment, Nat.add_sub_cancel_left, hdrop]
  dsimp only
  by_cases hlength : 1 ≤ run.length ∧ run.length ≤ 3
  swap
  · rw [if_pos (by omega), if_neg fun hoctet => hlength hoctet.1]
  have hlt := foldl_run_lt h 0
  have hpow : 10 ^ run.length ≤ 10 ^ 3 := Nat.pow_le_pow_right (by decide) hlength.2
  rw [← runValue] at hlt
  have hatoi : atoi lib (run ++ rest) = runValue run := by
    rw [atoi_eq, textValue_run (List.ne_nil_of_length_pos hlength.1) h hrest, if_pos (by omega)]
  rw [if_neg (show ¬ (run.length < 1 ∨ 3 < run.length) by omega), hatoi]
  by_cases hvalue : runValue run ≤ 255
  · rw [if_neg (by omega), if_pos ⟨hlength, h, hvalue⟩, Int.toNat_natCast, octetOf]
  · rw [if_pos (by omega), if_neg fun hoctet => hvalue hoctet.2.2]

end

/-! ### The loop -/

section

variable {lib : Library} {address piece rest : List UInt8} {i segmentStart : ℕ} {out : List UInt8}

/-- The characters of a piece are passed one by one as long as they are digits. -/
theorem ipv4Loop_digits (hdrop : address.drop i = piece ++ rest)
    (h : 0 ∉ piece ∧ octetSeparator ∉ piece) (hroom : out.length < 4) (fuel : ℕ) :
    ipv4Loop lib address (piece.length + fuel) i segmentStart out =
      if piece.all isDigit then
        ipv4Loop lib address fuel (i + piece.length) segmentStart out
      else none := by
  induction piece generalizing i with
  | nil => simp
  | cons ch piece ih =>
    obtain ⟨⟨hch0, hpiece0⟩, hch, hpiece⟩ : (ch ≠ 0 ∧ 0 ∉ piece) ∧
        ch ≠ octetSeparator ∧ octetSeparator ∉ piece := by
      simpa [eq_comm] using h
    have hget : address.getD i 0 = ch := getD_of_drop hdrop 0
    have hnext : address.drop (i + 1) = piece ++ rest := by
      rw [← List.drop_drop, hdrop]
      rfl
    have hgo := ih hnext ⟨hpiece0, hpiece⟩
    rw [List.length_cons, show piece.length + 1 + fuel = (piece.length + fuel) + 1 by omega,
      ipv4Loop, if_pos hroom]
    dsimp only
    rw [hget, if_neg (show ¬ (ch = 0 ∨ ch = octetSeparator) by tauto)]
    by_cases hdigit : isDigit ch = true
    · have hrange : ¬ (ch < 48 ∨ 57 < ch) := by
        simpa [isDigit] using hdigit
      rw [if_neg hrange, hgo]
      simp only [List.all_cons, hdigit, Bool.true_and, Nat.add_assoc, Nat.add_comm 1]
    · have hrange : ch < 48 ∨ 57 < ch := by
        by_contra hnot
        rw [not_or, UInt8.not_lt, UInt8.not_lt] at hnot
        exact hdigit (by simpa [isDigit] using hnot)
      rw [if_pos hrange, if_neg fun hall => hdigit (List.all_eq_true.1 hall ch List.mem_cons_self)]

/-- A piece is read up to the character that ends it, which is the terminator or a separator. -/
theorem ipv4Loop_piece (hdrop : address.drop i = piece ++ rest)
    (hpiece : 0 ∉ piece ∧ octetSeparator ∉ piece)
    (hrest : rest.getD 0 0 = 0 ∨ rest.getD 0 0 = octetSeparator) (hends : EndsDigits rest)
    (hroom : out.length < 4) (fuel : ℕ) :
    ipv4Loop lib address (piece.length + (fuel + 1)) i i out =
      if IsOctet piece then
        if rest.getD 0 0 = 0 then some (out ++ [octetOf piece], true)
        else ipv4Loop lib address fuel (i + piece.length + 1) (i + piece.length + 1)
          (out ++ [octetOf piece])
      else none := by
  rw [ipv4Loop_digits hdrop hpiece hroom]
  by_cases hall : piece.all isDigit = true
  swap
  · rw [if_neg hall, if_neg fun hoctet => hall (List.all_eq_true.2 hoctet.2.1)]
  have hdigits : ∀ ch ∈ piece, isDigit ch := List.all_eq_true.1 hall
  have hbehind : address.drop (i + piece.length) = rest := by
    rw [← List.drop_drop, hdrop, List.drop_left]
  have hget : address.getD (i + piece.length) 0 = rest.getD 0 0 := getD_of_drop hbehind 0
  rw [if_pos hall, ipv4Loop, if_pos hroom]
  dsimp only
  rw [hget, if_pos hrest, parseIpv4Segment_eq lib hdrop hdigits hends]
  by_cases hoctet : IsOctet piece
  · rw [if_pos hoctet, if_pos hoctet]
  · rw [if_neg hoctet, if_neg hoctet]

theorem finishIpv4_full (h : ¬ out.length < 4) (fuel : ℕ) :
    finishIpv4 (ipv4Loop lib address fuel i segmentStart out) = none := by
  cases fuel with
  | zero => rfl
  | succ fuel =>
    rw [ipv4Loop, if_neg h]
    rfl

/-- **What the loop does**: all pieces that are left are octets, and complete the four. -/
theorem finishIpv4_loop {pieces : List (List UInt8)} (hne : pieces ≠ [])
    (hpieces : ∀ p ∈ pieces, 0 ∉ p ∧ octetSeparator ∉ p)
    (hdrop : address.drop i = [octetSeparator].intercalate pieces) (hroom : out.length < 4)
    (hi : i ≤ address.length) {fuel : ℕ}
    (hfuel : address.length < i + fuel) :
    finishIpv4 (ipv4Loop lib address fuel i i out) =
      if (∀ p ∈ pieces, IsOctet p) ∧ out.length + pieces.length = 4 then
        some (out ++ pieces.map octetOf)
      else none := by
  induction pieces generalizing i out fuel with
  | nil => exact absurd rfl hne
  | cons piece pieces ih =>
    have hpiece := hpieces piece List.mem_cons_self
    have hlength := congrArg List.length hdrop
    rw [List.length_drop] at hlength
    cases pieces with
    | nil =>
      rw [List.intercalate_singleton] at hdrop hlength
      obtain ⟨more, rfl⟩ : ∃ more, fuel = piece.length + (more + 1) :=
        ⟨fuel - piece.length - 1, by omega⟩
      have hend : address.drop i = piece ++ [] := by rw [hdrop, List.append_nil]
      rw [ipv4Loop_piece hend hpiece (.inl rfl) endsDigits_nil hroom]
      by_cases hoctet : IsOctet piece
      · by_cases hlast : out.length + 1 = 4 <;> simp [finishIpv4, hoctet, hlast]
      · simp [finishIpv4, hoctet]
    | cons next pieces =>
      rw [List.intercalate_cons_cons, List.append_assoc, List.singleton_append] at hdrop hlength
      rw [List.length_append, List.length_cons] at hlength
      obtain ⟨more, rfl⟩ : ∃ more, fuel = piece.length + (more + 1) :=
        ⟨fuel - piece.length - 1, by omega⟩
      have hends :
          EndsDigits (octetSeparator :: [octetSeparator].intercalate (next :: pieces)) := by
        rintro c hc
        obtain rfl : octetSeparator = c := by simpa using hc
        decide
      rw [ipv4Loop_piece hdrop hpiece (.inr rfl) hends hroom]
      by_cases hoctet : IsOctet piece
      swap
      · rw [if_neg hoctet, if_neg fun hall => hoctet (hall.1 piece List.mem_cons_self)]
        rfl
      rw [if_pos hoctet, List.getD_cons_zero, if_neg (show octetSeparator ≠ 0 by decide)]
      by_cases hthree : (out ++ [octetOf piece]).length < 4
      · have hnext : address.drop (i + piece.length + 1) =
            [octetSeparator].intercalate (next :: pieces) := by
          rw [Nat.add_assoc, ← List.drop_drop, hdrop, List.drop_append]
          simp
        rw [ih (List.cons_ne_nil _ _) (fun p hp => hpieces p (List.mem_cons_of_mem _ hp))
          hnext hthree (by omega) (by omega)]
        simp only [List.forall_mem_cons, hoctet, true_and, List.length_append, List.length_cons,
          List.length_nil, List.map_cons, List.append_assoc, List.singleton_append]
        simp only [Nat.add_assoc, Nat.add_comm 1]
      · -- four segments are complete, and the text goes on
        rw [finishIpv4_full hthree, if_neg]
        rintro ⟨-, hcount⟩
        rw [List.length_append, List.length_singleton] at hthree
        rw [List.length_cons, List.length_cons] at hcount
        omega

theorem mem_intercalate {sep ch : UInt8} {pieces : List (List UInt8)} (hp : piece ∈ pieces)
    (hch : ch ∈ piece) : ch ∈ [sep].intercalate pieces := by
  induction pieces with
  | nil => exact absurd hp List.not_mem_nil
  | cons first pieces ih =>
    cases pieces with
    | nil =>
      obtain rfl := List.mem_singleton.1 hp
      rwa [List.intercalate_singleton]
    | cons next pieces =>
      rw [List.intercalate_cons_cons, List.append_assoc, List.mem_append]
      rcases List.mem_cons.1 hp with rfl | hp
      · exact .inl hch
      · exact .inr (List.mem_append_right _ (ih hp))

/-- **The texts that are accepted**: four octets with separators between. -/
theorem parseIpv4Address_eq (lib : Library) (h : 0 ∉ address) :
    parseIpv4Address lib (some address) =
      if (∀ p ∈ address.splitOn octetSeparator, IsOctet p) ∧
          (address.splitOn octetSeparator).length = 4 then
        some ((address.splitOn octetSeparator).map octetOf)
      else none := by
  have htext : [octetSeparator].intercalate (address.splitOn octetSeparator) = address :=
    List.intercalate_splitOn octetSeparator
  have hpieces : ∀ p ∈ address.splitOn octetSeparator, 0 ∉ p ∧ octetSeparator ∉ p := by
    refine fun p hp => ⟨fun hzero => h ?_, not_mem_of_mem_splitOn hp⟩
    rw [← htext]
    exact mem_intercalate hp hzero
  have hdrop : address.drop 0 = [octetSeparator].intercalate (address.splitOn octetSeparator) :=
    htext.symm
  have hfour : ([] : List UInt8).length < 4 := by decide
  rw [parseIpv4Address, finishIpv4_loop (List.splitOn_ne_nil octetSeparator address)
    hpieces hdrop hfour (Nat.zero_le _) (by omega), List.nil_append, List.length_nil, Nat.zero_add]

end

/-- The text is written with four octets. -/
def IsQuad (address : List UInt8) (octets : List (List UInt8)) : Prop :=
  octets.length = 4 ∧ (∀ p ∈ octets, IsOctet p) ∧ address = [octetSeparator].intercalate octets

theorem IsQuad.splitOn {address : List UInt8} {octets : List (List UInt8)}
    (h : IsQuad address octets) :
    address.splitOn octetSeparator = octets := by
  rw [h.2.2]
  refine List.splitOn_intercalate octetSeparator (fun p hp hsep => ?_) ?_
  · exact absurd ((h.2.1 p hp).2.1 octetSeparator hsep) (by decide)
  · exact List.ne_nil_of_length_pos (by rw [h.1]; decide)

theorem isQuad_iff {address : List UInt8} : (∃ octets, IsQuad address octets) ↔
    (∀ p ∈ address.splitOn octetSeparator, IsOctet p) ∧
      (address.splitOn octetSeparator).length = 4 := by
  constructor
  · rintro ⟨octets, h⟩
    rw [h.splitOn]
    exact ⟨h.2.1, h.1⟩
  · exact fun h => ⟨_, h.2, h.1, (List.intercalate_splitOn octetSeparator).symm⟩

theorem isIpv4Address_iff (lib : Library) {address : List UInt8} (h : 0 ∉ address) :
    isIpv4Address lib (some address) = true ↔ ∃ octets, IsQuad address octets := by
  rw [isIpv4Address, parseIpv4Address_eq lib h, isQuad_iff]
  split_ifs with hoctets
  · exact iff_of_true rfl hoctets
  · exact iff_of_false Bool.false_ne_true hoctets

theorem IsQuad.parse (lib : Library) {address : List UInt8} {octets : List (List UInt8)}
    (h : IsQuad address octets) (hzero : 0 ∉ address) :
    parseIpv4Address lib (some address) = some (octets.map octetOf) := by
  rw [parseIpv4Address_eq lib hzero, h.splitOn, if_pos ⟨h.2.1, h.1⟩]

/-! ### The comparison -/

theorem cmpSegments_swap (a b : List UInt16) : cmpSegments b a = -cmpSegments a b := by
  induction a generalizing b with
  | nil => cases b <;> rfl
  | cons g a ih =>
    cases b with
    | nil => rfl
    | cons k b =>
      rw [cmpSegments, cmpSegments, ih]
      split_ifs <;> omega

/-- The first segments that differ decide. -/
theorem cmpSegments_neg_iff {a b : List UInt16} (h : a.length = b.length) :
    cmpSegments a b < 0 ↔ a.map UInt16.toNat < b.map UInt16.toNat := by
  induction a generalizing b with
  | nil =>
    obtain rfl := List.length_eq_zero_iff.1 h.symm
    simp [cmpSegments]
  | cons g a ih =>
    cases b with
    | nil => simp at h
    | cons k b =>
      rw [cmpSegments, List.map_cons, List.map_cons, List.cons_lt_cons_iff, ← ih (by simpa using h)]
      split_ifs <;> omega

/-- **Addresses are compared octet by octet.** A text is accepted iff it is written with four
octets, and the sign of the comparison is the lexicographic order of the numbers, whatever zeros
lead them. -/
theorem cmpIpv4Address_quads (lib : Library) {a b : List UInt8} (ha : 0 ∉ a) (hb : 0 ∉ b) :
    ((isIpv4Address lib (some a) = true ↔ ∃ octets, IsQuad a octets) ∧
      (isIpv4Address lib (some b) = true ↔ ∃ octets, IsQuad b octets)) ∧
    ∀ octetsA octetsB, IsQuad a octetsA → IsQuad b octetsB →
      (cmpIpv4Address lib (some a) (some b) < 0 ↔ octetsA.map runValue < octetsB.map runValue) ∧
      (cmpIpv4Address lib (some a) (some b) = 0 ↔ octetsA.map runValue = octetsB.map runValue) ∧
      (0 < cmpIpv4Address lib (some a) (some b) ↔ octetsB.map runValue < octetsA.map runValue) := by
  refine ⟨⟨isIpv4Address_iff lib ha, isIpv4Address_iff lib hb⟩, fun octetsA octetsB hA hB => ?_⟩
  have hvalues : ∀ {octets : List (List UInt8)}, (∀ p ∈ octets, IsOctet p) →
      ((octets.map octetOf).map UInt8.toUInt16).map UInt16.toNat = octets.map runValue := by
    intro octets hoctets
    rw [List.map_map, List.map_map]
    refine List.map_congr_left fun p hp => ?_
    rw [Function.comp_apply, Function.comp_apply, UInt8.toNat_toUInt16,
      toNat_octetOf (hoctets p hp)]
  have hlength : ((octetsA.map octetOf).map UInt8.toUInt16).length =
      ((octetsB.map octetOf).map UInt8.toUInt16).length := by
    simp only [List.length_map, hA.1, hB.1]
  rw [cmpIpv4Address, hA.parse lib ha, hB.parse lib hb]
  simp only [Option.map_some, cmpAddress]
  refine ⟨?_, ?_, ?_⟩
  · rw [cmpSegments_neg_iff hlength, hvalues hA.2.1, hvalues hB.2.1]
  · rw [cmpSegments_eq_zero_iff hlength, ← hvalues hA.2.1, ← hvalues hB.2.1]
    exact (List.map_injective_iff.2 fun _ _ => UInt16.toNat_inj.1).eq_iff.symm
  · rw [← Int.neg_neg_iff_pos, ← cmpSegments_swap, cmpSegments_neg_iff hlength.symm, hvalues hA.2.1,
      hvalues hB.2.1]

theorem cmpIpv4Address_quads_leading :
    ((isIpv4Address .calm (some (bytes "0.0.0.7")) = true ↔
        ∃ octets, IsQuad (bytes "0.0.0.7") octets) ∧
      (isIpv4Address .calm (some (bytes "0.0.0.007")) = true ↔
        ∃ octets, IsQuad (bytes "0.0.0.007") octets)) ∧
    ∀ octetsA octetsB, IsQuad (bytes "0.0.0.7") octetsA → IsQuad (bytes "0.0.0.007") octetsB →
      (cmpIpv4Address .calm (some (bytes "0.0.0.7")) (some (bytes "0.0.0.007")) < 0 ↔
        octetsA.map runValue < octetsB.map runValue) ∧
      (cmpIpv4Address .calm (some (bytes "0.0.0.7")) (some (bytes "0.0.0.007")) = 0 ↔
        octetsA.map runValue = octetsB.map runValue) ∧
      (0 < cmpIpv4Address .calm (some (bytes "0.0.0.7")) (some (bytes "0.0.0.007")) ↔
        octetsB.map runValue < octetsA.map runValue) :=
  cmpIpv4Address_quads .calm (by decide) (by decide)

end XprcServer
