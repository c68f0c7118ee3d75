import XprcServer.Protocol.Arrays
import XprcServer.Protocol.Types

/-!
# Arrays from any text

`xprc_parse_array` is given a string and the number of characters of it that make the array.  It
looks for separators in the whole string, and reads numbers with `atoi`.

* `parseArray_int`, `parseArray_data` : what it returns for any text, whatever follows it
  (`intArrayOf`, `blobArrayOf`);
* `wellFormed_iff` : for which texts being accepted means being an array in the syntax of the
  protocol;
* `textsIndependent_iff` : for which texts nothing that follows them matters.
-/

namespace XprcServer

/-- A C library that makes nothing of floating-point numbers. -/
def FloatText.blank : FloatText := ⟨fun _ => [], fun _ => 0⟩

/-! ### Items of integers -/

/-- The integer read from an item. -/
def intValue (lib : Library) (item : List UInt8) : BitVec 32 := BitVec.ofInt 32 (atoi lib item)

/-- The integers read from items, none of which is empty; of what follows the text, all up to the
next separator belongs to the last one. -/
def readInts (lib : Library) (rest : List UInt8) : List (List UInt8) → Option (List (BitVec 32))
  | [] => some []
  | [last] => if last = [] then none else
      some [intValue lib (last ++ readBehind arrayItemSeparator rest)]
  | item :: next :: items =>
    if item = [] then none else (readInts lib rest (next :: items)).map (intValue lib item :: ·)

theorem length_readInts {lib : Library} {rest : List UInt8} {items : List (List UInt8)}
    {values : List (BitVec 32)} (h : readInts lib rest items = some values) :
    values.length = items.length := by
  induction items generalizing values with
  | nil =>
    injection h with h
    subst h
    rfl
  | cons item items ih =>
    cases items with
    | nil =>
      rw [readInts] at h
      split_ifs at h
      injection h with h
      rw [← h]
      rfl
    | cons next items =>
      rw [readInts] at h
      split_ifs at h
      obtain ⟨more, hmore, rfl⟩ := Option.map_eq_some_iff.1 h
      rw [List.length_cons, ih hmore]
      rfl

section

variable (lib : Library) (floats : FloatText) {rest : List UInt8}

theorem parseValue_intArray {text : List UInt8} (h : 0 ∉ text) {count : ℤ} (hcount : 1 ≤ count) :
    parseValue lib floats true text count xplmTypeIntArray 4 = some (intValue lib text) := by
  rw [parseValue, if_neg (by omega), if_neg (by decide), if_pos ⟨.inr rfl, Nat.le_refl _⟩,
    if_pos rfl, cString_eq_self h]
  rfl

/-- Behind the text the loop ends. -/
theorem parseItems_end {alloc : Bool} {s : List UInt8} {count offset before : ℤ} {type : BitVec 32}
    {fuel i : ℕ} {arr : DynamicArray} (h : count ≤ offset + 1) :
    parseItems lib floats alloc s count type fuel offset before i arr = some (some (i, arr)) := by
  cases fuel with
  | zero => rfl
  | succ fuel => rw [parseItems, if_neg (by omega)]

/-- The next separator behind an item, if the text goes on. -/
theorem strpos_item {s item more : List UInt8} {start : ℕ} (hs : 0 ∉ s)
    (hdrop : s.drop start = item ++ arrayItemSeparator :: more)
    (hitem : arrayItemSeparator ∉ item) :
    strpos s arrayItemSeparator start = start + item.length :=
  strpos_eq (by rw [cString_eq_self hs, hdrop]) hitem

/-- One pass of the loop over integers reads the item up to `next`, where that is behind it. -/
theorem parseItems_int_pass (fuel n : ℕ) (done : List (BitVec 32)) {s item behind : List UInt8}
    {count next : ℤ} {offset : ℕ} {before : ℤ} (hs : 0 ∉ s) (hlt : (offset : ℤ) + 1 < count)
    (hbefore : 0 ≤ before) (hpos : strpos s arrayItemSeparator (offset + 1) = next)
    (hlen : (if (offset : ℤ) < next then next else count) - offset - 1 = item.length)
    (hdrop : s.drop (offset + 1) = item ++ behind) (hstart : offset + 1 ≤ s.length)
    (hitem : item ≠ []) :
    parseItems lib floats true s count xplmTypeIntArray (fuel + 1) offset before done.length
        ⟨4, done ++ List.replicate (n + 1) 0⟩ =
      parseItems lib floats true s count xplmTypeIntArray fuel next next
        (done ++ [intValue lib item]).length
        ⟨4, (done ++ [intValue lib item]) ++ List.replicate n 0⟩ := by
  have hdata : xplmTypeIntArray ≠ xplmTypeData := by decide
  have hpositive := List.length_pos_iff.2 hitem
  have hitem0 : 0 ∉ item := by
    intro h0
    refine hs (List.mem_of_mem_drop (i := offset + 1) ?_)
    rw [hdrop]
    exact List.mem_append_left _ h0
  have hoffset : ((offset : ℤ) + 1).toNat = offset + 1 := by omega
  rw [parseItems, if_pos ⟨hlt, hbefore⟩]
  simp only [if_neg hdata, hoffset, hpos, hlen, Int.toNat_natCast]
  rw [if_neg (by omega), substring_eq hdrop hstart]
  simp only [Option.bind_eq_bind, Option.bind_some]
  rw [if_neg (by simp), parseValue_intArray lib floats hitem0 (by omega), ← set_behind,
    List.length_append]
  rfl

theorem parseItems_int_empty {s : List UInt8} {count next : ℤ} {fuel offset : ℕ}
    {before : ℤ} {i : ℕ} {arr : DynamicArray} (hlt : (offset : ℤ) + 1 < count)
    (hbefore : 0 ≤ before) (hpos : strpos s arrayItemSeparator (offset + 1) = next)
    (hlen : (if (offset : ℤ) < next then next else count) - offset - 1 = 0) :
    parseItems lib floats true s count xplmTypeIntArray (fuel + 1) offset before i arr =
      some none := by
  have hdata : xplmTypeIntArray ≠ xplmTypeData := by decide
  have hoffset : ((offset : ℤ) + 1).toNat = offset + 1 := by omega
  rw [parseItems, if_pos ⟨hlt, hbefore⟩]
  simp only [if_neg hdata, hoffset, hpos, hlen]
  rw [if_pos (by omega)]
  rfl

/-- From the separator in front of them on, the loop reads all items of a text, or gives up for an
empty one; an empty one at the end it does not see. -/
theorem parseItems_ints {s body : List UInt8} {offset count : ℕ} (hs : 0 ∉ s)
    (hdrop : s.drop (offset + 1) = body ++ rest) (hstart : offset + 1 ≤ s.length)
    (hcount : offset + 1 + body.length = count) {fuel : ℕ} (hfuel : body.length < fuel)
    {before : ℤ} (hbefore : 0 ≤ before) (done : List (BitVec 32)) :
    let items := body.splitOn arrayItemSeparator
    let result := parseItems lib floats true s count xplmTypeIntArray fuel offset before done.length
      ⟨4, done ++ List.replicate items.length 0⟩
    (∀ values, readInts lib rest items = some values →
      result = some (some ((done ++ values).length, ⟨4, done ++ values⟩))) ∧
    (readInts lib rest items = none →
      result = some none ∨ ∃ i arr, result = some (some (i, arr)) ∧
        i < done.length + items.length) := by
  induction hn : body.length using Nat.strong_induction_on
    generalizing body offset fuel before done with
  | _ n ih =>
    obtain ⟨fuel, rfl⟩ : ∃ k, fuel = k + 1 := ⟨fuel - 1, by omega⟩
    by_cases hsep : arrayItemSeparator ∈ body
    · -- an item with its separator behind it
      obtain ⟨item, body, rfl, hitem⟩ := List.eq_append_cons_of_mem hsep
      obtain ⟨next, items, hitems⟩ :=
        List.exists_cons_of_ne_nil (List.splitOn_ne_nil arrayItemSeparator body)
      rw [List.append_assoc, List.cons_append] at hdrop
      rw [List.length_append, List.length_cons] at hcount hn hfuel
      have hpos := strpos_item hs hdrop hitem
      have hlt : (offset : ℤ) + 1 < count := by omega
      have hlen : (if (offset : ℤ) < ((offset + 1 : ℕ) : ℤ) + item.length then
          ((offset + 1 : ℕ) : ℤ) + item.length else count) - offset - 1 = item.length := by
        rw [if_pos (by omega)]
        omega
      simp only [List.splitOn_append_cons_self_of_not_mem hitem, hitems, readInts]
      rcases eq_or_ne item [] with rfl | hne
      · rw [parseItems_int_empty lib floats hlt hbefore hpos hlen]
        simp
      · have hstep := parseItems_int_pass lib floats fuel (items.length + 1) done hs hlt hbefore
            hpos hlen hdrop hstart hne
        have hdrop' : s.drop (offset + 1 + item.length + 1) = body ++ rest := by
          rw [← List.drop_drop, ← List.drop_drop, hdrop, List.drop_left' rfl]
          rfl
        have hstart' : offset + 1 + item.length + 1 ≤ s.length := by
          have := congrArg List.length hdrop
          rw [List.length_drop, List.length_append, List.length_cons] at this
          omega
        obtain ⟨hread, hfail⟩ := ih body.length (by omega) hdrop' hstart' (by omega)
          (show body.length < fuel by omega) (Int.natCast_nonneg (offset + 1 + item.length))
            (done ++ [intValue lib item]) rfl
        simp only [hitems, List.length_cons] at hread hfail ⊢
        rw [hstep, if_neg hne]
        push_cast at hread hfail ⊢
        refine ⟨fun values h => ?_, fun h => ?_⟩
        · obtain ⟨more, hmore, rfl⟩ := Option.map_eq_some_iff.1 h
          simpa using hread more hmore
        · rw [Option.map_eq_none_iff] at h
          refine (hfail h).imp_right ?_
          rintro ⟨i, arr, hresult, hi⟩
          refine ⟨i, arr, hresult, ?_⟩
          simp only [List.length_append, List.length_singleton] at hi
          omega
    · -- the last item
      simp only [List.splitOn_eq_singleton hsep, readInts]
      rcases eq_or_ne body [] with rfl | hne
      · rw [List.length_nil] at hcount
        rw [parseItems_end lib floats (by omega)]
        simp
      · have hpositive := List.length_pos_iff.2 hne
        have hlt : (offset : ℤ) + 1 < count := by omega
        simp only [if_neg hne, readBehind]
        by_cases hrest : arrayItemSeparator ∈ rest
        · -- what follows the text up to the next separator is read as well
          obtain ⟨behind, more, rfl, hbehind⟩ := List.eq_append_cons_of_mem hrest
          have hitem : arrayItemSeparator ∉ body ++ behind := by simp [hsep, hbehind]
          rw [← List.append_assoc] at hdrop
          have hpos := strpos_item hs hdrop hitem
          have hlen : (if (offset : ℤ) < ((offset + 1 : ℕ) : ℤ) + (body ++ behind).length then
              ((offset + 1 : ℕ) : ℤ) + (body ++ behind).length else count) - offset - 1 =
              (body ++ behind).length := by
            rw [if_pos (by omega)]
            omega
          have hstep := parseItems_int_pass lib floats fuel 0 done hs hlt hbefore hpos hlen hdrop
              hstart (by simp [hne])
          have hend : (count : ℤ) ≤ ((offset + 1 : ℕ) : ℤ) + (body ++ behind).length + 1 := by
            rw [List.length_append]
            omega
          rw [if_pos hrest, takeWhile_append_cons hbehind]
          simp only [List.length_singleton]
          rw [hstep, parseItems_end lib floats hend]
          simp
        · have hnone : strpos s arrayItemSeparator (offset + 1) = -1 := by
            refine strpos_eq_neg_one ?_
            rw [cString_eq_self hs, hdrop]
            simp [hsep, hrest]
          have hlen : (if (offset : ℤ) < -1 then -1 else (count : ℤ)) - offset -
              1 = body.length := by
            rw [if_neg (by omega)]
            omega
          have hstep := parseItems_int_pass lib floats fuel 0 done hs hlt hbefore hnone
              hlen hdrop hstart hne
          rw [if_neg hrest, List.append_nil]
          simp only [List.length_singleton]
          rw [hstep, parseItems_last (by omega)]
          simp

end

/-! ### Bytes -/

/-- The bytes of pairs of hexadecimal digits. -/
def readBytes : List UInt8 → Option (List (BitVec 32))
  | [] => some []
  | [_] => none
  | high :: low :: more => do
    let high ← nibble high
    let low ← nibble low
    let values ← readBytes more
    return BitVec.ofNat 32 (16 * high + low) :: values

theorem length_readBytes {body : List UInt8} {values : List (BitVec 32)}
    (h : readBytes body = some values) : body.length = 2 * values.length := by
  induction values generalizing body with
  | nil =>
    match body, h with
    | [], _ => rfl
    | high :: low :: more, h => simp [readBytes, Option.bind_eq_some_iff] at h
  | cons value values ih =>
    match body, h with
    | high :: low :: more, h =>
      simp only [readBytes, Option.bind_eq_bind, Option.bind_eq_some_iff, Option.pure_def,
        Option.some.injEq, List.cons.injEq] at h
      obtain ⟨_, -, _, -, rest, hrest, -, rfl⟩ := h
      simp only [List.length_cons, ih hrest]
      omega

section

variable (lib : Library) (floats : FloatText) {rest : List UInt8}

theorem parseValue_pair (high low : UInt8) :
    parseValue lib floats true [high, low] 2 xplmTypeData 1 = (nibble high).bind fun high =>
      (nibble low).bind fun low => some (BitVec.ofNat 32 (16 * high + low)) := by
  rw [parseValue, if_neg (by omega), if_neg (by decide), if_neg (by decide), if_neg (by decide),
    if_pos ⟨rfl, Nat.le_refl _, rfl⟩]
  rfl

/-- The loop reads the pairs of digits in front of it, all of them or none. -/
theorem parseItems_bytes {s body : List UInt8} {start count k : ℕ}
    (hdrop : s.drop start = body ++ rest) (hstart : start ≤ s.length)
    (hcount : start + body.length = count) (hk : body.length = 2 * k) {fuel : ℕ} (hfuel : k < fuel)
    {before : ℤ} (hbefore : 0 ≤ before) (done : List (BitVec 32)) :
    parseItems lib floats true s count xplmTypeData fuel ((start : ℤ) - 1) before done.length
        ⟨1, done ++ List.replicate k 0⟩ =
      some ((readBytes body).map fun values => ((done ++ values).length, ⟨1, done ++ values⟩)) := by
  induction k generalizing body start fuel before done with
  | zero =>
    obtain rfl : body = [] := List.length_eq_zero_iff.1 (by omega)
    rw [List.length_nil] at hcount
    rw [parseItems_end lib floats (by omega)]
    simp [readBytes]
  | succ k ih =>
    obtain ⟨fuel, rfl⟩ : ∃ j, fuel = j + 1 := ⟨fuel - 1, by omega⟩
    match body, hk with
    | high :: low :: body, hk =>
      simp only [List.length_cons] at hcount hk
      have hlt : (start : ℤ) - 1 + 1 < count ∧ 0 ≤ before := ⟨by omega, hbefore⟩
      have hoffset : ((start : ℤ) - 1 + 1).toNat = start := by omega
      have hpair : substring s start [high, low].length = some [high, low] :=
        substring_eq hdrop hstart
      rw [parseItems, if_pos hlt]
      simp only [List.length_cons, List.length_nil, Nat.zero_add, Nat.reduceAdd] at hpair
      simp only [if_true, hoffset, Int.reduceToNat, hpair, Option.bind_eq_bind, Option.bind_some]
      rw [if_neg (by omega), if_neg (by simp), parseValue_pair]
      cases hhigh : nibble high with
      | none => simp [readBytes, hhigh]
      | some h =>
        cases hlow : nibble low with
        | none => simp [readBytes, hhigh, hlow]
        | some l =>
          have hread : readBytes (high :: low :: body) =
              (readBytes body).map (BitVec.ofNat 32 (16 * h + l) :: ·) := by
            rw [readBytes, hhigh, hlow]
            cases readBytes body <;> rfl
          simp only [Option.bind_some, hread, Option.map_map, set_behind]
          rcases Nat.eq_zero_or_pos k with rfl | hpos
          · -- these were the last two
            obtain rfl : body = [] := List.length_eq_zero_iff.1 (by omega)
            simp only [List.length_nil] at hcount
            rw [if_pos (by omega), parseItems_last (by omega)]
            simp [readBytes]
          · have hdrop' : s.drop (start + 2) = body ++ rest := by
              rw [← List.drop_drop, hdrop]
              rfl
            have hstart' : start + 2 ≤ s.length := by
              have := congrArg List.length hdrop
              rw [List.length_drop] at this
              simp only [List.cons_append, List.length_cons] at this
              omega
            have hrest := ih hdrop' hstart' (show start + 2 + body.length = count by omega)
                (by omega)
              (show k < fuel by omega) (show (0 : ℤ) ≤ ((start + 2 : ℕ) : ℤ) - 1 by omega)
              (done ++ [BitVec.ofNat 32 (16 * h + l)])
            rw [if_neg (by omega), show (start : ℤ) - 1 + 2 = ((start + 2 : ℕ) : ℤ) - 1 by omega]
            simp only [List.length_append, List.length_singleton, List.append_assoc,
              List.singleton_append] at hrest ⊢
            exact hrest

end

/-! ### Whole texts -/

/-- The header of a text, and what is behind its first separator. -/
def splitHeader (text : List UInt8) : Option (List UInt8 × List UInt8) :=
  if arrayItemSeparator ∈ text then
    some (text.takeWhile (· ≠ arrayItemSeparator),
      (text.dropWhile (· ≠ arrayItemSeparator)).tail)
  else none

/-- Without a separator in the text, none may follow it but directly. -/
def NoLateSeparator (rest : List UInt8) : Prop :=
  arrayItemSeparator ∈ rest → rest.head? = some arrayItemSeparator

instance (rest : List UInt8) : Decidable (NoLateSeparator rest) :=
  inferInstanceAs (Decidable (_ → _))

/-- The integers read from a text. -/
def intArrayOf (lib : Library) (text rest : List UInt8) : Option (List (BitVec 32)) :=
  match splitHeader text with
  | none =>
    if text ≠ [] ∧ NoLateSeparator rest ∧ atoi lib text = 0 ∧ text.length ≤ 2 then some [] else none
  | some (header, body) =>
    if header = [] then none
    else if atoi lib header = 0 ∧ header.length = 1 ∧ body = [] then some []
    else if atoi lib header = (body.splitOn arrayItemSeparator).length then
      readInts lib rest (body.splitOn arrayItemSeparator)
    else none

/-- The bytes read from a text. -/
def blobArrayOf (lib : Library) (text rest : List UInt8) : Option (List (BitVec 32)) :=
  match splitHeader text with
  | none =>
    if text ≠ [] ∧ arrayItemSeparator ∉ rest ∧ (text.length : ℤ) = 2 * atoi lib text then
      readBytes text
    else none
  | some (header, body) =>
    if header ≠ [] ∧ (body.length : ℤ) = 2 * atoi lib header then readBytes body else none

theorem splitHeader_append {header : List UInt8} (h : arrayItemSeparator ∉ header)
    (body : List UInt8) :
    splitHeader (header ++ arrayItemSeparator :: body) = some (header, body) := by
  rw [splitHeader, if_pos (by simp), takeWhile_append_cons h, List.dropWhile_append_of_pos
    (forall_ne_of_not_mem h)]
  simp

section

variable (lib : Library) (floats : FloatText) {text rest : List UInt8}

/-- An array whose allocation fails is not parsed. -/
theorem parseArray_noAlloc (s : List UInt8) (count : ℤ) (type : BitVec 32) :
    parseArray lib floats false s count type = some none := by
  simp only [parseArray, Bool.not_false, if_true]
  split_ifs <;> rfl

/-- Where the first separator is, in the text or behind it. -/
theorem strpos_text (h : 0 ∉ text ++ rest) (hsep : arrayItemSeparator ∉ text) :
    strpos (text ++ rest) arrayItemSeparator 0 =
      if arrayItemSeparator ∈ rest then
        (text.length + (rest.takeWhile (· ≠ arrayItemSeparator)).length : ℤ)
      else -1 := by
  by_cases hrest : arrayItemSeparator ∈ rest
  · obtain ⟨behind, more, rfl, hbehind⟩ := List.eq_append_cons_of_mem hrest
    have hwhole : (cString (text ++ (behind ++ arrayItemSeparator :: more))).drop 0 =
        (text ++ behind) ++ arrayItemSeparator :: more := by
      rw [cString_eq_self h, List.drop_zero, List.append_assoc]
    rw [if_pos hrest, takeWhile_append_cons hbehind, strpos_eq hwhole (by simp [hsep, hbehind])]
    simp
  · rw [if_neg hrest, strpos_eq_neg_one]
    rw [cString_eq_self h]
    simp [hsep, hrest]

/-- Without a separator in the text: there is none, one directly behind it, or one too late. -/
theorem strpos_noSeparator (h : 0 ∉ text ++ rest) (hsep : arrayItemSeparator ∉ text) :
    (NoLateSeparator rest → strpos (text ++ rest) arrayItemSeparator 0 =
      if arrayItemSeparator ∈ rest then (text.length : ℤ) else -1) ∧
    (¬ NoLateSeparator rest →
      (text.length : ℤ) < strpos (text ++ rest) arrayItemSeparator 0) := by
  rw [strpos_text h hsep]
  constructor
  · intro hlate
    by_cases hrest : arrayItemSeparator ∈ rest
    · obtain ⟨c, more, rfl⟩ := List.exists_cons_of_ne_nil (List.ne_nil_of_mem hrest)
      have hc : c = arrayItemSeparator := by simpa using hlate hrest
      simp [hc]
    · rw [if_neg hrest, if_neg hrest]
  · intro hlate
    obtain ⟨hrest, hhead⟩ := Classical.not_imp.1 hlate
    obtain ⟨c, more, rfl⟩ := List.exists_cons_of_ne_nil (List.ne_nil_of_mem hrest)
    have hc : c ≠ arrayItemSeparator := by simpa using hhead
    rw [if_pos hrest, List.takeWhile_cons, if_pos (decide_eq_true hc), List.length_cons]
    omega

theorem length_splitOn (separator : UInt8) (text : List UInt8) :
    (text.splitOn separator).length = text.count separator + 1 := by
  induction hn : text.length using Nat.strong_induction_on generalizing text with
  | _ n ih =>
    by_cases hsep : separator ∈ text
    · obtain ⟨item, text, rfl, hitem⟩ := List.eq_append_cons_of_mem hsep
      rw [List.splitOn_append_cons_self_of_not_mem hitem, List.length_cons,
        ih text.length (by rw [← hn]; simp; omega) text rfl, List.count_append,
        List.count_cons_self, List.count_eq_zero_of_not_mem hitem]
      omega
    · rw [List.splitOn_eq_singleton hsep, List.count_eq_zero_of_not_mem hsep]
      rfl

theorem countChars_text (h : 0 ∉ text ++ rest) (separator : UInt8) :
    countChars (text ++ rest) separator text.length = text.count separator := by
  rw [countChars, cString_eq_self h, List.take_left' rfl]

/-- The first separator of a text stands behind its header. -/
theorem strpos_separator {header body : List UInt8}
    (h : 0 ∉ header ++ arrayItemSeparator :: body ++ rest) (hheader : arrayItemSeparator ∉ header) :
    strpos (header ++ arrayItemSeparator :: body ++ rest) arrayItemSeparator 0 = header.length := by
  have hwhole : (cString (header ++ arrayItemSeparator :: body ++ rest)).drop 0 =
      header ++ arrayItemSeparator :: (body ++ rest) := by
    rw [cString_eq_self h, List.drop_zero, List.append_assoc]
    rfl
  rw [strpos_eq hwhole hheader]
  simp

/-- What is found of a text with a header: the header, and the body behind it. -/
theorem headed_text (header body rest : List UInt8) :
    (header ++ arrayItemSeparator :: body).length = header.length + 1 + body.length ∧
      substring (header ++ arrayItemSeparator :: body ++ rest) 0 header.length = some header ∧
      (header ++ arrayItemSeparator :: body ++ rest).drop (header.length + 1) = body ++ rest := by
  refine ⟨?_, substring_eq (by rw [List.drop_zero, List.append_assoc]) (Nat.zero_le _), ?_⟩
  · rw [List.length_append, List.length_cons]
    omega
  · rw [List.append_assoc, ← List.drop_drop, List.drop_left' rfl]
    rfl

/-- **What `xprc_parse_array` makes of any text for integers**, whatever follows it. -/
theorem parseArray_int (h : 0 ∉ text ++ rest) :
    parseArray lib floats true (text ++ rest) text.length xplmTypeIntArray =
      some ((intArrayOf lib text rest).map fun values => ⟨4, values⟩) := by
  have hdata : xplmTypeIntArray ≠ xplmTypeData := by decide
  have htext0 : 0 ∉ text := fun h0 => h (List.mem_append_left _ h0)
  have hwhole : substring (text ++ rest) 0 text.length = some text :=
    substring_eq rfl (Nat.zero_le _)
  by_cases hsep : arrayItemSeparator ∈ text
  · obtain ⟨header, body, rfl, hheader⟩ := List.eq_append_cons_of_mem hsep
    rw [intArrayOf, splitHeader_append hheader]
    have hfirst := strpos_separator h hheader
    have hheader0 : 0 ∉ header := fun h0 => htext0 (List.mem_append_left _ h0)
    obtain ⟨hlength, htmp, hdrop⟩ := headed_text header body rest
    have hnum : countChars (header ++ arrayItemSeparator :: body ++ rest) arrayItemSeparator
        ((header ++ arrayItemSeparator :: body).length : ℤ).toNat =
        (body.splitOn arrayItemSeparator).length := by
      rw [Int.toNat_natCast, countChars_text h, List.count_append, List.count_cons_self,
        List.count_eq_zero_of_not_mem hheader, length_splitOn]
      omega
    have hitems : 0 < (body.splitOn arrayItemSeparator).length :=
      List.length_pos_iff.2 (List.splitOn_ne_nil _ _)
    rw [parseArray, if_neg (by omega), if_neg (by decide)]
    simp only [hnum, hfirst, Bool.not_true, Bool.false_eq_true, if_false, if_neg hdata]
    rcases eq_or_ne header [] with rfl | hne
    · rfl
    have hpos := List.length_pos_iff.2 hne
    have hstart : ¬ ((header.length : ℤ) = 0 ∨
        ((header ++ arrayItemSeparator :: body).length : ℤ) < header.length) := by omega
    rw [if_neg hstart, if_pos (by omega), Int.toNat_natCast, htmp, if_neg hne]
    simp only [Option.bind_eq_bind, Option.bind_some, cString_eq_self hheader0]
    rw [if_neg (fun h => hdata h.1)]
    by_cases hempty : atoi lib header = 0 ∧ header.length = 1 ∧ body = []
    · obtain ⟨hzero, hone, rfl⟩ := hempty
      have hgood : ¬ (xplmTypeIntArray ≠ xplmTypeData ∧ (atoi lib header < 0 ∨
          atoi lib header ≠ 0 ∧ atoi lib header ≠
            (([] : List UInt8).splitOn arrayItemSeparator).length ∨
          atoi lib header = 0 ∧ (1 < (([] : List UInt8).splitOn arrayItemSeparator).length ∨
            2 < ((header ++ [arrayItemSeparator]).length : ℤ)))) := by
        rintro ⟨-, hbad⟩
        rw [hlength, hzero, hone] at hbad
        simp at hbad
      rw [if_neg hgood, if_neg (by omega), if_pos hzero, if_pos ⟨hzero, hone, rfl⟩]
      simp [hzero]
    · rw [if_neg hempty]
      by_cases hcount : atoi lib header = (body.splitOn arrayItemSeparator).length
      · have hgood : ¬ (xplmTypeIntArray ≠ xplmTypeData ∧ (atoi lib header < 0 ∨
            atoi lib header ≠ 0 ∧ atoi lib header ≠ (body.splitOn arrayItemSeparator).length ∨
            atoi lib header = 0 ∧ (1 < (body.splitOn arrayItemSeparator).length ∨
              2 < ((header ++ arrayItemSeparator :: body).length : ℤ)))) := by omega
        rw [if_neg hgood, if_neg (by omega), if_neg (by omega), if_pos hcount, hcount,
          Int.toNat_natCast, Int.toNat_natCast]
        have hbehind : header.length + 1 ≤
            (header ++ arrayItemSeparator :: body ++ rest).length := by
          rw [List.length_append]
          omega
        have hloop := parseItems_ints lib floats h hdrop hbehind hlength.symm
          (show body.length < (header ++ arrayItemSeparator :: body).length by omega)
          (Int.le_refl 0) []
        simp only [List.nil_append, List.length_nil, Nat.zero_add] at hloop
        cases hread : readInts lib rest (body.splitOn arrayItemSeparator) with
        | some values =>
          have hlen := length_readInts hread
          rw [hloop.1 values hread]
          simp [hlen]
        | none =>
          rcases hloop.2 hread with hnone | ⟨i, arr, hsome, hi⟩
          · rw [hnone]
            rfl
          · rw [hsome]
            simp only [Option.bind_some]
            rw [if_pos (by omega)]
            rfl
      · have hlong : ¬ (header.length = 1 ∧ body.length = 0) ∨ atoi lib header ≠ 0 := by
          by_contra hnot
          push Not at hnot
          exact hempty ⟨hnot.2, hnot.1.1, List.length_eq_zero_iff.1 hnot.1.2⟩
        have hbad : xplmTypeIntArray ≠ xplmTypeData ∧ (atoi lib header < 0 ∨
            atoi lib header ≠ 0 ∧ atoi lib header ≠ (body.splitOn arrayItemSeparator).length ∨
            atoi lib header = 0 ∧ (1 < (body.splitOn arrayItemSeparator).length ∨
              2 < ((header ++ arrayItemSeparator :: body).length : ℤ))) := ⟨hdata, by omega⟩
        rw [if_pos hbad, if_neg hcount]
        rfl
  · have hsplit : splitHeader text = none := if_neg hsep
    rw [intArrayOf, hsplit]
    rcases eq_or_ne text [] with rfl | hne
    · rfl
    have hpos := List.length_pos_iff.2 hne
    have hcount : countChars (text ++ rest) arrayItemSeparator (text.length : ℤ).toNat = 0 := by
      rw [Int.toNat_natCast, countChars_text h, List.count_eq_zero_of_not_mem hsep]
    obtain ⟨hnear, hfar⟩ := strpos_noSeparator h hsep
    rw [parseArray, if_neg (by omega), if_neg (by decide)]
    simp only [hcount, Bool.not_true, Bool.false_eq_true, if_false, if_neg hdata]
    by_cases hlate : NoLateSeparator rest
    · have hoffset : strpos (text ++ rest) arrayItemSeparator 0 = -1 ∨
          strpos (text ++ rest) arrayItemSeparator 0 = text.length := by
        rw [hnear hlate]
        split_ifs
        · exact .inr rfl
        · exact .inl rfl
      generalize strpos (text ++ rest) arrayItemSeparator 0 = offset at hoffset ⊢
      have hitem : (if 0 < offset then offset else (text.length : ℤ)).toNat = text.length := by
        split_ifs <;> omega
      have hstart : ¬ (offset = 0 ∨ (text.length : ℤ) < offset) := by omega
      rw [if_neg hstart, hitem, hwhole]
      simp only [Option.bind_eq_bind, Option.bind_some, cString_eq_self htext0]
      by_cases hzero : atoi lib text = 0 ∧ text.length ≤ 2
      · obtain ⟨hvalue, hshort⟩ := hzero
        have hgood : ¬ (xplmTypeIntArray ≠ xplmTypeData ∧ (atoi lib text < 0 ∨
            atoi lib text ≠ 0 ∧ atoi lib text ≠ ((0 : ℕ) : ℤ) ∨
            atoi lib text = 0 ∧ (1 < 0 ∨ 2 < (text.length : ℤ)))) := by omega
        rw [if_neg (fun h => hdata h.1), if_neg hgood, hvalue, if_neg (by decide), if_pos rfl,
          if_pos ⟨hne, hlate, rfl, hshort⟩]
        rfl
      · have hbad : xplmTypeIntArray ≠ xplmTypeData ∧ (atoi lib text < 0 ∨
            atoi lib text ≠ 0 ∧ atoi lib text ≠ ((0 : ℕ) : ℤ) ∨
            atoi lib text = 0 ∧ (1 < 0 ∨ 2 < (text.length : ℤ))) := ⟨hdata, by omega⟩
        rw [if_neg (fun h => hdata h.1), if_pos hbad, if_neg (by tauto)]
        rfl
    · rw [if_pos (.inr (hfar hlate)), if_neg (by tauto)]
      rfl

/-- The end of `xprc_parse_array` for a blob whose digits start at `start`, when `n` is read from
its header. -/
theorem blob_end {s body : List UInt8} {start count : ℕ} (hdrop : s.drop start = body ++ rest)
    (hstart : start ≤ s.length) (hcount : start + body.length = count) {offset : ℤ}
    (hoffset : offset + 1 = start) (n : ℤ) :
    (if (body.length : ℤ).tdiv 2 ≠ n ∨ (body.length : ℤ).tmod 2 ≠ 0 then some none
      else if n < 0 then some none
      else if n = 0 then some (some ⟨1, List.replicate n.toNat 0⟩)
      else (parseItems lib floats true s count xplmTypeData (count : ℤ).toNat offset 0 0
        ⟨1, List.replicate n.toNat 0⟩).bind fun result =>
          match result with
          | none => some none
          | some (i, arr) => if (i : ℤ) ≠ n then some none else some (some arr)) =
      some ((if (body.length : ℤ) = 2 * n then readBytes body else none).map fun values =>
        (⟨1, values⟩ : DynamicArray)) := by
  rw [Int.tdiv_eq_ediv_of_nonneg (Int.natCast_nonneg _),
    Int.tmod_eq_emod_of_nonneg (Int.natCast_nonneg _), show offset = (start : ℤ) - 1 by omega]
  by_cases hlen : (body.length : ℤ) = 2 * n
  · have hnum : ¬ ((body.length : ℤ) / 2 ≠ n ∨ (body.length : ℤ) % 2 ≠ 0) := by omega
    rw [if_neg hnum, if_neg (by omega), if_pos hlen]
    by_cases hzero : n = 0
    · obtain rfl : body = [] := List.length_eq_zero_iff.1 (by omega)
      rw [if_pos hzero, hzero]
      rfl
    · obtain ⟨k, rfl⟩ := Int.eq_ofNat_of_zero_le (show 0 ≤ n by omega)
      have hloop := parseItems_bytes lib floats hdrop hstart hcount
          (show body.length = 2 * k by omega)
        (show k < count by omega) (Int.le_refl 0) []
      simp only [List.nil_append, List.length_nil] at hloop
      rw [if_neg hzero, Int.toNat_natCast, Int.toNat_natCast, hloop, Option.bind_some]
      cases hread : readBytes body with
      | none => rfl
      | some values =>
        have hvalues := length_readBytes hread
        simp only [Option.map_some]
        rw [if_neg (by omega)]
  · have hnum : (body.length : ℤ) / 2 ≠ n ∨ (body.length : ℤ) % 2 ≠ 0 := by omega
    rw [if_pos hnum, if_neg hlen]
    rfl

/-- **What `xprc_parse_array` makes of any text for a blob**, whatever follows it. -/
theorem parseArray_data (h : 0 ∉ text ++ rest) :
    parseArray lib floats true (text ++ rest) text.length xplmTypeData =
      some ((blobArrayOf lib text rest).map fun values => ⟨1, values⟩) := by
  have htext0 : 0 ∉ text := fun h0 => h (List.mem_append_left _ h0)
  have hwhole : substring (text ++ rest) 0 text.length = some text :=
    substring_eq rfl (Nat.zero_le _)
  by_cases hsep : arrayItemSeparator ∈ text
  · obtain ⟨header, body, rfl, hheader⟩ := List.eq_append_cons_of_mem hsep
    rw [blobArrayOf, splitHeader_append hheader]
    have hfirst := strpos_separator h hheader
    have hheader0 : 0 ∉ header := fun h0 => htext0 (List.mem_append_left _ h0)
    obtain ⟨hlength, htmp, hdrop⟩ := headed_text header body rest
    have hbehind : header.length + 1 ≤ (header ++ arrayItemSeparator :: body ++ rest).length := by
      rw [List.length_append]
      omega
    rw [parseArray, if_neg (by omega), if_neg (by decide)]
    simp only [hfirst, Bool.not_true, Bool.false_eq_true, if_false, if_true]
    rcases eq_or_ne header [] with rfl | hne
    · rfl
    have hpos := List.length_pos_iff.2 hne
    have hstart : ¬ ((header.length : ℤ) = 0 ∨
        ((header ++ arrayItemSeparator :: body).length : ℤ) < header.length) := by omega
    have hstrlen : ((header ++ arrayItemSeparator :: body).length : ℤ) - header.length - 1 =
        body.length := by omega
    rw [if_neg hstart, if_pos (by omega), Int.toNat_natCast, htmp, hstrlen]
    simp only [Option.bind_eq_bind, Option.bind_some, cString_eq_self hheader0, true_and]
    have hend := blob_end lib floats hdrop hbehind hlength.symm (show (header.length : ℤ) + 1 = _ by
      omega) (atoi lib header)
    simp only [ne_eq, not_true_eq_false, false_and, if_false, hne, not_false_eq_true, true_and]
    exact hend
  · have hsplit : splitHeader text = none := if_neg hsep
    rw [blobArrayOf, hsplit]
    rcases eq_or_ne text [] with rfl | hne
    · rfl
    have hpos := List.length_pos_iff.2 hne
    obtain ⟨hnear, hfar⟩ := strpos_noSeparator h hsep
    rw [parseArray, if_neg (by omega), if_neg (by decide)]
    simp only [Bool.not_true, Bool.false_eq_true, if_false, if_true]
    by_cases hrest : arrayItemSeparator ∈ rest
    · have hnone : ¬ (text ≠ [] ∧ arrayItemSeparator ∉ rest ∧
          (text.length : ℤ) = 2 * atoi lib text) := fun h => h.2.1 hrest
      rw [if_neg hnone]
      by_cases hlate : NoLateSeparator rest
      · -- the separator that follows the text does not count for its digits
        have hoffset := hnear hlate
        rw [if_pos hrest] at hoffset
        have hstart : ¬ ((text.length : ℤ) = 0 ∨ (text.length : ℤ) < text.length) := by omega
        have hbad : True ∧ (((text.length : ℤ) - text.length - 1).tdiv 2 ≠ atoi lib text ∨
              ((text.length : ℤ) - text.length - 1).tmod 2 ≠ 0) := by
          rw [show (text.length : ℤ) - text.length - 1 = -1 by omega]
          exact ⟨trivial, .inr (by decide)⟩
        rw [hoffset, if_neg hstart, if_pos (by omega), Int.toNat_natCast, hwhole]
        simp only [Option.bind_eq_bind, Option.bind_some, cString_eq_self htext0]
        rw [if_pos hbad]
        rfl
      · rw [if_pos (.inr (hfar hlate))]
        rfl
    · have hoffset := hnear fun hmem => absurd hmem hrest
      rw [if_neg hrest] at hoffset
      rw [hoffset, if_neg (by omega), if_neg (by omega), Int.toNat_natCast, hwhole,
        show (text.length : ℤ) - -1 - 1 = text.length by omega]
      simp only [Option.bind_eq_bind, Option.bind_some, cString_eq_self htext0]
      have hdrop : (text ++ rest).drop 0 = text ++ rest := List.drop_zero
      have hend := blob_end lib floats hdrop (Nat.zero_le _) (Nat.zero_add _)
        (show (-1 : ℤ) + 1 = (0 : ℕ) by omega) (atoi lib text)
      simp only [ne_eq, not_true_eq_false, false_and, if_false, hne, hrest, not_false_eq_true,
        true_and]
      exact hend

end

/-! ### What follows the text -/

section

variable {lib : Library} {floats : FloatText} {text rest : List UInt8}

theorem readInts_append (earlier : List (List UInt8)) (last : List UInt8) :
    readInts lib rest (earlier ++ [last]) =
      if (∀ item ∈ earlier, item ≠ []) ∧ last ≠ [] then
        some (earlier.map (intValue lib) ++
          [intValue lib (last ++ readBehind arrayItemSeparator rest)])
      else none := by
  induction earlier with
  | nil =>
    by_cases hlast : last = []
    · simp [readInts, hlast]
    · simp [readInts, hlast]
  | cons item earlier ih =>
    have hstep : readInts lib rest (item :: (earlier ++ [last])) = if item = [] then none
        else (readInts lib rest (earlier ++ [last])).map (intValue lib item :: ·) := by
      obtain ⟨next, items, hitems⟩ := List.exists_cons_of_ne_nil
        (show earlier ++ [last] ≠ [] by simp)
      rw [hitems, readInts]
    rw [List.cons_append, hstep, ih]
    by_cases hitem : item = []
    · simp [hitem]
    · by_cases hrest : (∀ item ∈ earlier, item ≠ []) ∧ last ≠ []
      · rw [if_neg hitem, if_pos hrest, if_pos (by simpa [hitem] using hrest)]
        rfl
      · rw [if_neg hitem, if_neg hrest, if_neg (by simpa [hitem] using hrest)]
        rfl

/-- The integers of a text whose header agrees with its items. -/
theorem intArrayOf_items (rest : List UInt8) {header body last : List UInt8}
    {earlier : List (List UInt8)} (hheader : arrayItemSeparator ∉ header) (hne : header ≠ [])
    (hsplit : body.splitOn arrayItemSeparator = earlier ++ [last])
    (hcount : atoi lib header = (earlier ++ [last]).length)
    (hearlier : ∀ item ∈ earlier, item ≠ []) (hlast : last ≠ []) :
    intArrayOf lib (header ++ arrayItemSeparator :: body) rest =
      some (earlier.map (intValue lib) ++
        [intValue lib (last ++ readBehind arrayItemSeparator rest)]) := by
  have hpos : ¬ (atoi lib header = 0 ∧ header.length = 1 ∧ body = []) := by
    rw [List.length_append, List.length_singleton] at hcount
    omega
  simp only [intArrayOf, splitHeader_append hheader]
  rw [if_neg hne, if_neg hpos, hsplit, if_pos hcount, readInts_append, if_pos ⟨hearlier, hlast⟩]

theorem readBehind_free (separator : UInt8) (h : 0 ∉ rest) :
    separator ∉ readBehind separator rest ∧ 0 ∉ readBehind separator rest := by
  unfold readBehind
  split_ifs
  · constructor
    · intro hmem
      simpa using List.mem_takeWhile_imp hmem
    · exact fun hmem => h ((List.takeWhile_prefix _).subset hmem)
  · simp

/-- What follows the text is not taken for a part of an array of integers: it is rejected for its
header, or one of its items is empty, or the number in the last one is complete. -/
structure IntsClosed (lib : Library) (text : List UInt8) : Prop where
  alone : arrayItemSeparator ∉ text → text = [] ∨ 2 < text.length ∨ atoi lib text ≠ 0
  last : ∀ header body earlier last, text = header ++ arrayItemSeparator :: body →
    arrayItemSeparator ∉ header → body.splitOn arrayItemSeparator = earlier ++ [last] →
    header ≠ [] → (∀ item ∈ earlier, item ≠ []) → last ≠ [] →
    atoi lib header = (earlier ++ [last]).length →
    ∀ behind, arrayItemSeparator ∉ behind → 0 ∉ behind →
      intValue lib (last ++ behind) = intValue lib last

/-- What follows the text does not decide whether it is a blob: it has a separator, or its digits do
not pass for bytes without one. -/
def BlobClosed (lib : Library) (text : List UInt8) : Prop :=
  arrayItemSeparator ∉ text → text ≠ [] → (text.length : ℤ) = 2 * atoi lib text →
    readBytes text = none

theorem intsIndependent_iff : (∀ rest rest', 0 ∉ rest → 0 ∉ rest' →
    intArrayOf lib text rest = intArrayOf lib text rest') ↔ IntsClosed lib text := by
  constructor
  · intro hsame
    constructor
    · intro hsep
      by_contra hnot
      push Not at hnot
      obtain ⟨hne, hshort, hzero⟩ := hnot
      have hbang : ¬ NoLateSeparator [33, arrayItemSeparator] := by decide
      have heq := hsame [] [33, arrayItemSeparator] (by simp) (by decide)
      have hsplit : splitHeader text = none := if_neg hsep
      simp only [intArrayOf, hsplit] at heq
      rw [if_pos ⟨hne, by decide, hzero, hshort⟩, if_neg fun h => hbang h.2.1] at heq
      cases heq
    · rintro header body earlier last rfl hheader hsplit hne hearlier hlast hcount behind hsep hzero
      have heq := hsame (behind ++ [arrayItemSeparator]) [] (by
        intro hmem
        rcases List.mem_append.1 hmem with hmem | hmem
        · exact hzero hmem
        · exact absurd (List.mem_singleton.1 hmem) (by decide)) (by simp)
      have hnil : readBehind arrayItemSeparator [] = [] := rfl
      rw [intArrayOf_items _ hheader hne hsplit hcount hearlier hlast,
        intArrayOf_items _ hheader hne hsplit hcount hearlier hlast, readBehind_append hsep, hnil,
        List.append_nil] at heq
      injection heq with heq
      have hends := List.append_cancel_left heq
      injection hends
  · intro hclosed rest rest' hrest hrest'
    by_cases hsep : arrayItemSeparator ∈ text
    · obtain ⟨header, body, rfl, hheader⟩ := List.eq_append_cons_of_mem hsep
      obtain ⟨earlier, last, hsplit⟩ : ∃ earlier last,
          body.splitOn arrayItemSeparator = earlier ++ [last] := exists_last body
      simp only [intArrayOf, splitHeader_append hheader, hsplit, readInts_append]
      by_cases hne : header = []
      · rw [if_pos hne, if_pos hne]
      by_cases hempty : atoi lib header = 0 ∧ header.length = 1 ∧ body = []
      · rw [if_neg hne, if_neg hne, if_pos hempty, if_pos hempty]
      by_cases hcount : atoi lib header = (earlier ++ [last]).length
      · by_cases hitems : (∀ item ∈ earlier, item ≠ []) ∧ last ≠ []
        · have hvalue : ∀ rest : List UInt8, 0 ∉ rest →
              intValue lib (last ++ readBehind arrayItemSeparator rest) = intValue lib last := by
            intro rest hrest
            obtain ⟨hfree, hfree0⟩ := readBehind_free arrayItemSeparator hrest
            exact hclosed.last header body earlier last rfl hheader hsplit hne hitems.1 hitems.2
              hcount _ hfree hfree0
          rw [hvalue rest hrest, hvalue rest' hrest']
        · simp only [if_neg hitems]
      · simp only [if_neg hcount]
    · have hsplit : splitHeader text = none := if_neg hsep
      have hnone : ∀ rest, intArrayOf lib text rest = none := by
        intro rest
        simp only [intArrayOf, hsplit]
        rw [if_neg]
        rintro ⟨hne, -, hzero, hshort⟩
        rcases hclosed.alone hsep with h | h | h
        · exact hne h
        · omega
        · exact h hzero
      rw [hnone, hnone]

theorem blobIndependent_iff : (∀ rest rest', 0 ∉ rest → 0 ∉ rest' →
    blobArrayOf lib text rest = blobArrayOf lib text rest') ↔ BlobClosed lib text := by
  constructor
  · intro hsame hsep hne hlen
    have hsplit : splitHeader text = none := if_neg hsep
    have heq := hsame [] [arrayItemSeparator] (by simp) (by decide)
    simp only [blobArrayOf, hsplit] at heq
    rwa [if_pos ⟨hne, by simp, hlen⟩, if_neg fun h => h.2.1 (by simp)] at heq
  · intro hclosed rest rest' hrest hrest'
    by_cases hsep : arrayItemSeparator ∈ text
    · obtain ⟨header, body, rfl, hheader⟩ := List.eq_append_cons_of_mem hsep
      simp only [blobArrayOf, splitHeader_append hheader]
    · have hsplit : splitHeader text = none := if_neg hsep
      have hnone : ∀ rest, blobArrayOf lib text rest = none := by
        intro rest
        simp only [blobArrayOf, hsplit]
        by_cases hread : text ≠ [] ∧ arrayItemSeparator ∉ rest ∧
          (text.length : ℤ) = 2 * atoi lib text
        · rw [if_pos hread]
          exact hclosed hsep hread.1 hread.2.2
        · rw [if_neg hread]
      rw [hnone, hnone]

/-- No function that is given the text and its length is influenced by what follows it. -/
structure TextsIndependent (lib : Library) (floats : FloatText) (text : List UInt8) : Prop where
  types : TypesIndependent text
  ints : ∀ alloc rest rest', 0 ∉ rest → 0 ∉ rest' →
    parseArray lib floats alloc (text ++ rest) text.length xplmTypeIntArray =
      parseArray lib floats alloc (text ++ rest') text.length xplmTypeIntArray
  blob : ∀ alloc rest rest', 0 ∉ rest → 0 ∉ rest' →
    parseArray lib floats alloc (text ++ rest) text.length xplmTypeData =
      parseArray lib floats alloc (text ++ rest') text.length xplmTypeData

/-- An array is parsed independently of what follows it iff its items are read so. -/
theorem parseArray_same_iff (lib : Library) (floats : FloatText) {text : List UInt8}
    {type : BitVec 32} {itemSize : ℕ} {arrayOf : List UInt8 → Option (List (BitVec 32))}
    (hspec : ∀ rest, 0 ∉ rest → parseArray lib floats true (text ++ rest) text.length type =
      some ((arrayOf rest).map fun values => ⟨itemSize, values⟩)) :
    (∀ alloc rest rest', 0 ∉ rest → 0 ∉ rest' →
      parseArray lib floats alloc (text ++ rest) text.length type =
        parseArray lib floats alloc (text ++ rest') text.length type) ↔
      ∀ rest rest', 0 ∉ rest → 0 ∉ rest' → arrayOf rest = arrayOf rest' := by
  have hinj : Function.Injective fun values => (⟨itemSize, values⟩ : DynamicArray) :=
    fun a b h => congrArg DynamicArray.items h
  constructor
  · intro hsame rest rest' hrest hrest'
    have heq := hsame true rest rest' hrest hrest'
    rw [hspec rest hrest, hspec rest' hrest'] at heq
    exact Option.map_injective hinj (Option.some.inj heq)
  · intro hsame alloc rest rest' hrest hrest'
    cases alloc with
    | false => rw [parseArray_noAlloc, parseArray_noAlloc]
    | true => rw [hspec rest hrest, hspec rest' hrest', hsame rest rest' hrest hrest']

/-- **The counted text alone decides exactly for closed texts.** The types and arrays read from the
first `count` characters of a string are the same whatever stands behind these characters iff the
text is closed for types, for integers and for blobs. -/
theorem textsIndependent_iff (lib : Library) (floats : FloatText) (text : List UInt8)
    (h : 0 ∉ text) :
    TextsIndependent lib floats text ↔
      TypesClosed text ∧ IntsClosed lib text ∧ BlobClosed lib text := by
  have hwhole : ∀ rest : List UInt8, 0 ∉ rest → 0 ∉ text ++ rest := by
    intro rest hrest hmem
    exact (List.mem_append.1 hmem).elim h hrest
  have hints := parseArray_same_iff lib floats fun rest hrest =>
    parseArray_int lib floats (hwhole rest hrest)
  have hblob := parseArray_same_iff lib floats fun rest hrest =>
    parseArray_data lib floats (hwhole rest hrest)
  rw [intsIndependent_iff] at hints
  rw [blobIndependent_iff] at hblob
  rw [← typesIndependent_iff h, ← hints, ← hblob]
  exact ⟨fun ⟨htypes, hints, hblob⟩ => ⟨htypes, hints, hblob⟩,
    fun ⟨htypes, hints, hblob⟩ => ⟨htypes, hints, hblob⟩⟩

theorem textsIndependent_iff_letter :
    TextsIndependent .calm .blank (bytes "1,7x") ↔
      TypesClosed (bytes "1,7x") ∧ IntsClosed .calm (bytes "1,7x") ∧
        BlobClosed .calm (bytes "1,7x") :=
  textsIndependent_iff .calm .blank (bytes "1,7x") (by decide)

/-- The name of a dataref with a comma hides its type; without one it does not. -/
theorem textsIndependent_fails_comma : ¬ TextsIndependent .calm .blank (bytes "int") := by
  intro h
  exact absurd (h.types (bytes ":a,b") (bytes ":ab") (by decide) (by decide)) (by decide +kernel)

end

/-! ### Accepted texts -/

/-- The text is the number `n` in decimal notation. -/
structure IsDecimal (header : List UInt8) (n : ℤ) : Prop where
  ne_nil : header ≠ []
  digits : ∀ c ∈ header, isDigit c = true
  value : digitsValue header = n

/-- The text of a blob: the number of its bytes, and behind a comma two digits for each of them; an
empty one may be the number alone. -/
def BlobForm (text : List UInt8) (values : List (BitVec 32)) : Prop :=
  ∃ header, IsDecimal header values.length ∧
    (values = [] ∧ text = header ∨ ∃ body, text = header ++ arrayItemSeparator :: body ∧
      body.length = 2 * values.length ∧ readBytes body = some values)

/-- The text of an array of integers: their number, and a comma in front of each of them; there may
be a comma behind the number of an empty one. -/
def IntForm (text : List UInt8) (values : List (BitVec 32)) : Prop :=
  ∃ header, IsDecimal header values.length ∧
    (values = [] ∧ text = header ++ [arrayItemSeparator] ∨
      ∃ items : List (List UInt8), items.length = values.length ∧
        (∀ item ∈ items, item ≠ [] ∧ arrayItemSeparator ∉ item) ∧
        text = header ++ items.flatMap fun item => arrayItemSeparator :: item)

/-- What is accepted is an array in the syntax of the protocol. -/
structure WellFormed (lib : Library) (floats : FloatText) (text rest : List UInt8) : Prop where
  blob : ∀ alloc arr,
    parseArray lib floats alloc (text ++ rest) text.length xplmTypeData = some (some arr) →
      BlobForm text arr.items
  ints : ∀ alloc arr,
    parseArray lib floats alloc (text ++ rest) text.length xplmTypeIntArray = some (some arr) →
      IntForm text arr.items

/-- Where `atoi` finds the number of items that there are, it is written in decimal notation; and
the text is no run of hexadecimal digits that starts with half of its length. -/
structure StrictHeader (lib : Library) (text rest : List UInt8) : Prop where
  blobAlone : arrayItemSeparator ∉ text → arrayItemSeparator ∉ rest → text ≠ [] →
    (text.length : ℤ) = 2 * atoi lib text → readBytes text = none
  blob : ∀ header body, text = header ++ arrayItemSeparator :: body → arrayItemSeparator ∉ header →
    header ≠ [] → (body.length : ℤ) = 2 * atoi lib header → readBytes body ≠ none →
    IsDecimal header (atoi lib header)
  intAlone : arrayItemSeparator ∉ text → text ≠ [] → NoLateSeparator rest → text.length ≤ 2 →
    atoi lib text = 0 → IsDecimal text 0
  ints : ∀ header body, text = header ++ arrayItemSeparator :: body → arrayItemSeparator ∉ header →
    header ≠ [] →
    (atoi lib header = 0 ∧ header.length = 1 ∧ body = [] ∨
      atoi lib header = (body.splitOn arrayItemSeparator).length ∧
        ∀ item ∈ body.splitOn arrayItemSeparator, item ≠ []) →
    IsDecimal header (atoi lib header)

section

variable {lib : Library} {floats : FloatText} {text rest header body : List UInt8} {n : ℤ}

theorem IsDecimal.separator_not_mem (h : IsDecimal header n) : arrayItemSeparator ∉ header := by
  intro hmem
  exact absurd (h.digits _ hmem) (by decide)

/-- The header of a text is unique. -/
theorem header_unique {header' body' : List UInt8} (h : arrayItemSeparator ∉ header)
    (h' : arrayItemSeparator ∉ header')
    (heq : header ++ arrayItemSeparator :: body = header' ++ arrayItemSeparator :: body') :
    header = header' ∧ body = body' := by
  have hsplit := congrArg splitHeader heq
  rw [splitHeader_append h, splitHeader_append h'] at hsplit
  injection hsplit with hsplit
  exact Prod.mk.inj hsplit

/-- The items of a text, each behind a separator. -/
theorem flatMap_splitOn (body : List UInt8) :
    (body.splitOn arrayItemSeparator).flatMap (fun item => arrayItemSeparator :: item) =
      arrayItemSeparator :: body := by
  have hjoin : ∀ items : List (List UInt8), items ≠ [] →
      items.flatMap (fun item => arrayItemSeparator :: item) =
        arrayItemSeparator :: [arrayItemSeparator].intercalate items := by
    intro items hitems
    induction items with
    | nil => exact absurd rfl hitems
    | cons item items ih =>
      cases items with
      | nil => simp
      | cons next items =>
        rw [List.flatMap_cons, ih (List.cons_ne_nil next items),
          List.intercalate_cons_of_ne_nil (List.cons_ne_nil next items), List.append_assoc]
        rfl
  rw [hjoin _ (List.splitOn_ne_nil arrayItemSeparator body), List.intercalate_splitOn]

theorem parseArray_data_eq_some (h : 0 ∉ text ++ rest) {alloc : Bool} {arr : DynamicArray}
    (hparse : parseArray lib floats alloc (text ++ rest) text.length xplmTypeData =
      some (some arr)) : blobArrayOf lib text rest = some arr.items := by
  cases alloc with
  | false =>
    rw [parseArray_noAlloc] at hparse
    cases hparse
  | true =>
    rw [parseArray_data lib floats h] at hparse
    injection hparse with hparse
    obtain ⟨values, hvalues, rfl⟩ := Option.map_eq_some_iff.1 hparse
    exact hvalues

theorem parseArray_int_eq_some (h : 0 ∉ text ++ rest) {alloc : Bool} {arr : DynamicArray}
    (hparse : parseArray lib floats alloc (text ++ rest) text.length xplmTypeIntArray =
      some (some arr)) : intArrayOf lib text rest = some arr.items := by
  cases alloc with
  | false =>
    rw [parseArray_noAlloc] at hparse
    cases hparse
  | true =>
    rw [parseArray_int lib floats h] at hparse
    injection hparse with hparse
    obtain ⟨values, hvalues, rfl⟩ := Option.map_eq_some_iff.1 hparse
    exact hvalues

/-- Every accepted blob is in the syntax iff no header is read loosely. -/
theorem blobForm_iff (lib : Library) (text rest : List UInt8) :
    (∀ values, blobArrayOf lib text rest = some values → BlobForm text values) ↔
    (arrayItemSeparator ∉ text → arrayItemSeparator ∉ rest → text ≠ [] →
      (text.length : ℤ) = 2 * atoi lib text → readBytes text = none) ∧
    (∀ header body, text = header ++ arrayItemSeparator :: body → arrayItemSeparator ∉ header →
      header ≠ [] → (body.length : ℤ) = 2 * atoi lib header → readBytes body ≠ none →
      IsDecimal header (atoi lib header)) := by
  constructor
  · intro hform
    constructor
    · intro hsep hrest hne hlen
      by_contra hread
      obtain ⟨values, hvalues⟩ := Option.ne_none_iff_exists'.1 hread
      have hlength := length_readBytes hvalues
      have hpos := List.length_pos_iff.2 hne
      obtain ⟨header, hdecimal, ⟨hnil, -⟩ | ⟨body, rfl, -⟩⟩ := hform values (by
        rw [blobArrayOf, show splitHeader text = none from if_neg hsep]
        exact (if_pos ⟨hne, hrest, hlen⟩).trans hvalues)
      · rw [hnil, List.length_nil] at hlength
        omega
      · exact hsep (by simp)
    · rintro header body rfl hheader hne hlen hread
      obtain ⟨values, hvalues⟩ := Option.ne_none_iff_exists'.1 hread
      have hlength := length_readBytes hvalues
      have hcount : atoi lib header = values.length := by omega
      obtain ⟨header', hdecimal, ⟨-, heq⟩ | ⟨body', heq, -⟩⟩ := hform values (by
        rw [blobArrayOf, splitHeader_append hheader]
        exact (if_pos ⟨hne, hlen⟩).trans hvalues)
      · exact absurd (heq ▸ by simp : arrayItemSeparator ∈ header') hdecimal.separator_not_mem
      · rw [hcount, (header_unique hheader hdecimal.separator_not_mem heq).1]
        exact hdecimal
  · rintro ⟨halone, hblob⟩ values hvalues
    by_cases hsep : arrayItemSeparator ∈ text
    · obtain ⟨header, body, rfl, hheader⟩ := List.eq_append_cons_of_mem hsep
      simp only [blobArrayOf, splitHeader_append hheader] at hvalues
      split_ifs at hvalues with hread
      have hlength := length_readBytes hvalues
      have hcount : atoi lib header = values.length := by omega
      have hdecimal := hblob header body rfl hheader hread.1 hread.2 (by rw [hvalues]; simp)
      rw [hcount] at hdecimal
      exact ⟨header, hdecimal, .inr ⟨body, rfl, hlength, hvalues⟩⟩
    · simp only [blobArrayOf, show splitHeader text = none from if_neg hsep] at hvalues
      split_ifs at hvalues with hread
      rw [halone hsep hread.2.1 hread.1 hread.2.2] at hvalues
      cases hvalues

/-- The items of an accepted array of integers. -/
theorem readInts_eq_some_iff {items : List (List UInt8)} :
    (∃ values, readInts lib rest items = some values) ↔ ∀ item ∈ items, item ≠ [] := by
  induction items using List.reverseRecOn with
  | nil => simp [readInts]
  | append_singleton earlier last _ =>
    rw [readInts_append, List.forall_mem_append, List.forall_mem_singleton]
    by_cases h : (∀ item ∈ earlier, item ≠ []) ∧ last ≠ []
    · rw [if_pos h]
      exact iff_of_true ⟨_, rfl⟩ h
    · rw [if_neg h]
      exact iff_of_false (fun ⟨_, hnone⟩ => by cases hnone) h

/-- Every accepted array of integers is in the syntax iff no header is read loosely. -/
theorem intForm_iff (lib : Library) (text rest : List UInt8) :
    (∀ values, intArrayOf lib text rest = some values → IntForm text values) ↔
    (arrayItemSeparator ∉ text → text ≠ [] → NoLateSeparator rest → text.length ≤ 2 →
      atoi lib text = 0 → IsDecimal text 0) ∧
    (∀ header body, text = header ++ arrayItemSeparator :: body → arrayItemSeparator ∉ header →
      header ≠ [] →
      (atoi lib header = 0 ∧ header.length = 1 ∧ body = [] ∨
        atoi lib header = (body.splitOn arrayItemSeparator).length ∧
          ∀ item ∈ body.splitOn arrayItemSeparator, item ≠ []) →
      IsDecimal header (atoi lib header)) := by
  constructor
  · intro hform
    constructor
    · intro hsep hne hlate hshort hzero
      obtain ⟨header, hdecimal, ⟨-, rfl⟩ | ⟨items, hitems, -, rfl⟩⟩ := hform [] (by
        rw [intArrayOf, show splitHeader text = none from if_neg hsep]
        exact if_pos ⟨hne, hlate, hzero, hshort⟩)
      · exact absurd (by simp) hsep
      · obtain rfl : items = [] := List.length_eq_zero_iff.1 hitems
        simpa using hdecimal
    · rintro header body rfl hheader hne hread
      have hsplit := splitHeader_append hheader body
      rcases hread with hempty | ⟨hcount, hitems⟩
      · obtain ⟨hzero, hone, rfl⟩ := hempty
        obtain ⟨header', hdecimal, ⟨-, heq⟩ | ⟨items, hlen, -, heq⟩⟩ := hform [] (by
          rw [intArrayOf, hsplit]
          exact (if_neg hne).trans (if_pos ⟨hzero, hone, rfl⟩))
        · rw [hzero, (header_unique hheader hdecimal.separator_not_mem heq).1]
          exact hdecimal
        · obtain rfl : items = [] := List.length_eq_zero_iff.1 hlen
          rw [List.flatMap_nil, List.append_nil] at heq
          exact absurd (heq ▸ by simp : arrayItemSeparator ∈ header') hdecimal.separator_not_mem
      · obtain ⟨values, hvalues⟩ := readInts_eq_some_iff.2 hitems
        have hlength := length_readInts hvalues
        have hpos : 0 < (body.splitOn arrayItemSeparator).length :=
          List.length_pos_iff.2 (List.splitOn_ne_nil _ _)
        obtain ⟨header', hdecimal, ⟨hnil, -⟩ | ⟨items, hlen, -, heq⟩⟩ := hform values (by
          rw [intArrayOf, hsplit]
          exact (if_neg hne).trans ((if_neg (by omega)).trans ((if_pos hcount).trans hvalues)))
        · rw [hnil, List.length_nil] at hlength
          omega
        · obtain ⟨item, items, rfl⟩ := List.exists_cons_of_ne_nil
            (List.length_pos_iff.1 (show 0 < items.length by omega))
          rw [List.flatMap_cons, List.cons_append] at heq
          rw [hcount, ← hlength, (header_unique hheader hdecimal.separator_not_mem heq).1]
          exact hdecimal
  · rintro ⟨halone, hints⟩ values hvalues
    by_cases hsep : arrayItemSeparator ∈ text
    · obtain ⟨header, body, rfl, hheader⟩ := List.eq_append_cons_of_mem hsep
      simp only [intArrayOf, splitHeader_append hheader] at hvalues
      split_ifs at hvalues with hne hempty hcount
      · obtain rfl : [] = values := Option.some.inj hvalues
        have hdecimal := hints header body rfl hheader hne (.inl hempty)
        obtain ⟨hzero, -, rfl⟩ := hempty
        rw [hzero] at hdecimal
        exact ⟨header, hdecimal, .inl ⟨rfl, rfl⟩⟩
      · have hitems := readInts_eq_some_iff.1 ⟨values, hvalues⟩
        have hlength := length_readInts hvalues
        have hdecimal := hints header body rfl hheader hne (.inr ⟨hcount, hitems⟩)
        have hjoin := flatMap_splitOn body
        rw [hcount, ← hlength] at hdecimal
        refine ⟨header, hdecimal, .inr ⟨_, hlength.symm, fun item hitem => ?_, by rw [hjoin]⟩⟩
        exact ⟨hitems item hitem, not_mem_of_mem_splitOn hitem⟩
    · simp only [intArrayOf, show splitHeader text = none from if_neg hsep] at hvalues
      split_ifs at hvalues with hread
      obtain rfl : [] = values := Option.some.inj hvalues
      exact ⟨text, halone hsep hread.1 hread.2.1 hread.2.2.2 hread.2.2.1, .inr ⟨[], rfl, by simp,
        by simp⟩⟩

/-- **What is accepted has the syntax of the protocol iff its header is strict.** For every string
and every number of its characters: whatever `xprc_parse_array` accepts as a blob or as integers is
an array in decimal and hexadecimal notation of as many items as it says, unless `atoi` reads the
right number from a header that is no decimal number, or a blob has no separator. -/
theorem wellFormed_iff (lib : Library) (floats : FloatText) (text rest : List UInt8)
    (h : 0 ∉ text ++ rest) :
    WellFormed lib floats text rest ↔ StrictHeader lib text rest := by
  have hblob := blobForm_iff lib text rest
  have hints := intForm_iff lib text rest
  constructor
  · intro hform
    obtain ⟨hblobAlone, hblobHeader⟩ := hblob.1 fun values hvalues =>
      hform.blob true ⟨1, values⟩ (by rw [parseArray_data lib floats h, hvalues]; rfl)
    obtain ⟨hintAlone, hintHeader⟩ := hints.1 fun values hvalues =>
      hform.ints true ⟨4, values⟩ (by rw [parseArray_int lib floats h, hvalues]; rfl)
    exact ⟨hblobAlone, hblobHeader, hintAlone, hintHeader⟩
  · intro hstrict
    constructor
    · intro alloc arr hparse
      exact hblob.2 ⟨hstrict.blobAlone, hstrict.blob⟩ _ (parseArray_data_eq_some h hparse)
    · intro alloc arr hparse
      exact hints.2 ⟨hstrict.intAlone, hstrict.ints⟩ _ (parseArray_int_eq_some h hparse)

theorem wellFormed_iff_two :
    WellFormed .calm .blank (bytes "2,10,20") (bytes ":x") ↔
      StrictHeader .calm (bytes "2,10,20") (bytes ":x") :=
  wellFormed_iff .calm .blank (bytes "2,10,20") (bytes ":x") (by decide)

/-- Two characters without a separator are taken for a blob of one byte. -/
theorem wellFormed_fails_blob : ¬ WellFormed .calm .blank (bytes "01") [] := by
  intro h
  obtain ⟨header, -, ⟨hnil, -⟩ | ⟨body, htext, -⟩⟩ := h.blob true ⟨1, [1]⟩ (by decide +kernel)
  · cases hnil
  · have hsep : arrayItemSeparator ∈ bytes "01" := by
      rw [htext]
      simp
    exact absurd hsep (by decide)

end

end XprcServer
