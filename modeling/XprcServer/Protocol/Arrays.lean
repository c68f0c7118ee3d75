import Mathlib.Algebra.GroupWithZero.Nat
import XprcServer.Dataproxy.Access
import XprcServer.Decimal
import XprcServer.Lib.Buffer

/-!
# Arrays in the protocol

`protocol.c`: an array is written as its length and its items, each behind a comma; the bytes of a
blob stand as pairs of hexadecimal digits behind a single comma.  An empty array is only its length,
`0`, for every type.

* `parseArray_encodeArray_int_iff` : arrays of integers survive encoding and parsing;
* `parseArray_encodeArray_data_iff` : so do blobs, but for the empty one, whose text has no comma;
* `arrays_round_trip_iff` : both, with the bound that the `int` arithmetic on lengths sets.
-/

namespace XprcServer

open Lib

/-- `dynamic_array_t` without its spare capacity.  An item is the word of its bits: an `int32_t`,
the bits of a `float`, or a byte. -/
structure DynamicArray where
  itemSize : ℕ
  items : List (BitVec 32)
  deriving DecidableEq, Repr

/-- How the C library writes and reads floating-point numbers. -/
structure FloatText where
  /-- `%f` of the `float` with these bits -/
  format : BitVec 32 → List UInt8
  /-- The bits of `atof`, converted to `float` -/
  atof : List UInt8 → BitVec 32

/-- `XPRC_ARRAY_ITEM_SEPARATOR`, `,` -/
def arrayItemSeparator : UInt8 := 44

/-- `array_types` -/
def arrayTypes : BitVec 32 := xplmTypeIntArray ||| xplmTypeFloatArray ||| xplmTypeData

/-- `supported_types` -/
def supportedTypes : BitVec 32 := xplmTypeInt ||| xplmTypeFloat ||| xplmTypeDouble ||| arrayTypes

/-! ### Encoding -/

/-- A digit of `%02X`. -/
def hexDigit (nibble : ℕ) : UInt8 := UInt8.ofNat (if nibble < 10 then 48 + nibble else 55 + nibble)

/-- The text of one item, with its separator unless it belongs to a blob. -/
def encodeItem (floats : FloatText) (type : BitVec 32) (item : BitVec 32) : List UInt8 :=
  if type = xplmTypeIntArray then arrayItemSeparator :: decimalInt item.toInt
  else if type = xplmTypeFloatArray then arrayItemSeparator :: floats.format item
  else [hexDigit (item.toNat % 256 / 16), hexDigit (item.toNat % 16)]

/-- The strings `xprc_encode_array` concatenates. -/
def encodePieces (floats : FloatText) (type : BitVec 32) (items : List (BitVec 32)) :
    List (List UInt8) :=
  (decimal items.length ++ if type = xplmTypeData then [arrayItemSeparator] else []) ::
    items.map (encodeItem floats type)

/-- `xprc_encode_array`; `alloc` says whether all its allocations succeed, but for the last one of a
size that is not positive, which never does.  The lengths of the strings are summed up in an `int`;
the strings are copied one behind the other whatever became of the sum. -/
def encodeArray (floats : FloatText) (alloc : Bool) (type : BitVec 32) (arr : Option DynamicArray) :
    Access (Option (List UInt8)) :=
  match arr with
  | none => some none
  | some arr =>
    if type ≠ xplmTypeIntArray ∧ type ≠ xplmTypeFloatArray ∧ type ≠ xplmTypeData then some none
    else if !alloc then some none
    else if arr.items.length = 0 then some (some (bytes "0"))
    else
      let pieces := encodePieces floats type arr.items
      let totalLength := toInt32 pieces.flatten.length
      let size := toInt32 (totalLength + 1)
      if size ≤ 0 then some none
      else do
        let out ← (Buffer.zeroed 0 size.toNat).putAll pieces
        return some (out.cells.take totalLength.toNat)

/-! ### Parsing -/

/-- `length` characters of a string from `start` on; behind its terminator there is nothing to
read. -/
def substring (s : List UInt8) (start length : ℕ) : Access (List UInt8) :=
  if start + length ≤ s.length + 1 then some (((s ++ [0]).drop start).take length) else none

/-- The value of a hexadecimal digit. -/
def nibble (ch : UInt8) : Option ℕ :=
  if 48 ≤ ch ∧ ch ≤ 57 then some (ch.toNat - 48)
  else if 65 ≤ ch ∧ ch ≤ 70 then some (10 + (ch.toNat - 65))
  else if 97 ≤ ch ∧ ch ≤ 102 then some (10 + (ch.toNat - 97))
  else none

/-- `xprc_parse_value` of the `count` characters of `s`.  (A `xplmType_Double` needs more bytes than
an item of an array has.) -/
def parseValue (lib : Library) (floats : FloatText) (alloc : Bool) (s : List UInt8) (count : ℤ)
    (type : BitVec 32) (valueSize : ℕ) : Option (BitVec 32) :=
  if count < 1 then none
  else if type &&& ~~~supportedTypes ≠ 0 then none
  else if (type = xplmTypeInt ∨ type = xplmTypeIntArray) ∧ 4 ≤ valueSize then
    if alloc then some (BitVec.ofInt 32 (atoi lib (cString s))) else none
  else if (type = xplmTypeFloat ∨ type = xplmTypeFloatArray) ∧ 4 ≤ valueSize then
    if alloc then some (floats.atof (cString s)) else none
  else if type = xplmTypeData ∧ 1 ≤ valueSize ∧ count = 2 then do
    let high ← nibble (s.getD 0 0)
    let low ← nibble (s.getD 1 0)
    return BitVec.ofNat 32 (16 * high + low)
  else none

section

variable (lib : Library) (floats : FloatText) (alloc : Bool) (s : List UInt8) (count : ℤ)
  (type : BitVec 32)

/-- The loop of `xprc_parse_array`: the item behind the separator is parsed into place `i`.  Every
pass moves `offsetSeparator` forward or ends the loop, so that `count` passes are enough. -/
def parseItems : ℕ → ℤ → ℤ → ℕ → DynamicArray → Access (Option (ℕ × DynamicArray))
  | 0, _, _, i, arr => some (some (i, arr))
  | fuel + 1, offsetSeparator, nextOffsetSeparator, i, arr =>
    if offsetSeparator + 1 < count ∧ 0 ≤ nextOffsetSeparator then do
      let nextOffsetSeparator :=
        if type = xplmTypeData then
          if count ≤ offsetSeparator + 2 + 1 then -1 else offsetSeparator + 2
        else strpos s arrayItemSeparator (offsetSeparator + 1).toNat
      let itemLength :=
        if type = xplmTypeData then 2
        else (if offsetSeparator < nextOffsetSeparator then nextOffsetSeparator else count) -
          offsetSeparator - 1
      if itemLength < 1 then return none
      let text ← substring s (offsetSeparator + 1).toNat itemLength.toNat
      -- there is no pointer to a place outside of the array
      if arr.items.length ≤ i then return none
      match parseValue lib floats alloc text itemLength type arr.itemSize with
      | none => return none
      | some value =>
        parseItems fuel nextOffsetSeparator nextOffsetSeparator (i + 1)
          { arr with items := arr.items.set i value }
    else some (some (i, arr))

/-- `xprc_parse_array` of a string -/
def parseArray : Access (Option DynamicArray) :=
  if count < 1 then some none
  else if type &&& ~~~arrayTypes ≠ 0 then some none
  else do
    let itemSize := if type = xplmTypeData then 1 else 4
    let numSeparators := countChars s arrayItemSeparator count.toNat
    let offsetSeparator := strpos s arrayItemSeparator 0
    if offsetSeparator = 0 ∨ count < offsetSeparator then return none
    if !alloc then return none
    let tmp ← substring s 0 (if 0 < offsetSeparator then offsetSeparator else count).toNat
    let arrLength := atoi lib (cString tmp)
    let blobStrlen := count - offsetSeparator - 1
    if type = xplmTypeData ∧ (blobStrlen.tdiv 2 ≠ arrLength ∨ blobStrlen.tmod 2 ≠ 0) then
      return none
    if type ≠ xplmTypeData ∧ (arrLength < 0 ∨ arrLength ≠ 0 ∧ arrLength ≠ numSeparators ∨
        arrLength = 0 ∧ (1 < numSeparators ∨ 2 < count)) then return none
    -- `create_dynamic_array` refuses a negative capacity, and zeroes what it allocates
    if arrLength < 0 then return none
    let arr := ⟨itemSize, List.replicate arrLength.toNat 0⟩
    if arrLength = 0 then return some arr
    match ← parseItems lib floats alloc s count type count.toNat offsetSeparator 0 0 arr with
    | none => return none
    | some (i, arr) => if (i : ℤ) ≠ arrLength then return none else return some arr

end

/-! ### The text of an array -/

/-- An array of 32-bit integers. -/
def DynamicArray.ofInts (items : List (BitVec 32)) : DynamicArray := ⟨4, items⟩

/-- An array of bytes. -/
def DynamicArray.ofBytes (items : List UInt8) : DynamicArray :=
  ⟨1, items.map fun byte => BitVec.ofNat 32 byte.toNat⟩

/-- The text of a non-empty array. -/
def arrayText (floats : FloatText) (type : BitVec 32) (items : List (BitVec 32)) : List UInt8 :=
  (encodePieces floats type items).flatten

section

variable {floats : FloatText} {type : BitVec 32} {items : List (BitVec 32)}

/-- A text whose length is below the greatest `int` is what the encoder returns. -/
theorem encodeArray_eq (htype : type = xplmTypeIntArray ∨ type = xplmTypeData) {itemSize : ℕ}
    (hitems : items ≠ []) (hlt : (arrayText floats type items).length < 2 ^ 31 - 1) :
    encodeArray floats true type (some ⟨itemSize, items⟩) =
      some (some (arrayText floats type items)) := by
  have hknown : ¬ (type ≠ xplmTypeIntArray ∧ type ≠ xplmTypeFloatArray ∧ type ≠ xplmTypeData) := by
    rcases htype with rfl | rfl <;> decide
  have hlen : items.length ≠ 0 := fun h => hitems (List.length_eq_zero_iff.1 h)
  have htotal : toInt32 (encodePieces floats type items).flatten.length =
      (arrayText floats type items).length :=
    Int.bmod_eq_of_le (by rw [← arrayText]; omega) (by rw [← arrayText]; omega)
  have hsize : toInt32 (((arrayText floats type items).length : ℤ) + 1) =
      ((arrayText floats type items).length + 1 : ℕ) := by
    rw [toInt32, Int.bmod_eq_of_le (by omega) (by omega)]
    rfl
  obtain ⟨out, hput, hout⟩ := (Buffer.holds_zeroed (0 : UInt8)
    ((arrayText floats type items).length + 1)).putAll
    (show (encodePieces floats type items).flatten.length ≤ _ from Nat.le_succ _)
  simp only [encodeArray, if_neg hknown, Bool.not_true, Bool.false_eq_true, if_false, hlen, htotal,
    hsize, Int.toNat_natCast]
  rw [if_neg (by omega), hput]
  simp only [Option.bind_eq_bind, Option.bind_some]
  rw [hout.cells, List.nil_append, ← arrayText, List.take_left' rfl]
  rfl

/-- Of a longer text the sum of the lengths is wrong: nothing is allocated, or too little. -/
theorem encodeArray_ne (hitems : items ≠ []) {itemSize : ℕ} {alloc : Bool}
    (hle : 2 ^ 31 - 1 ≤ (arrayText floats type items).length) (text : List UInt8) :
    encodeArray floats alloc type (some ⟨itemSize, items⟩) ≠ some (some text) := by
  have hlen : items.length ≠ 0 := fun h => hitems (List.length_eq_zero_iff.1 h)
  simp only [encodeArray, hlen, if_false]
  split_ifs with h1 h2 h3
  · simp
  · simp
  · simp
  · -- the buffer ends before the text does
    have hshort : (toInt32 (toInt32 (encodePieces floats type items).flatten.length + 1)).toNat <
        (encodePieces floats type items).flatten.length := by
      rw [arrayText] at hle
      generalize (encodePieces floats type items).flatten.length = n at *
      have h1 := (toInt32_bounds n).2
      have h2 := (toInt32_bounds (toInt32 n + 1)).2
      rcases Nat.lt_or_ge (2 ^ 31 - 1) n with hlt | hge
      · omega
      · -- the greatest `int` is taken for the length, and one more is the least
        obtain rfl : n = 2 ^ 31 - 1 := by omega
        exact absurd (by decide) h3
    rw [(Buffer.holds_zeroed (0 : UInt8) _).putAll_eq_none hshort]
    simp

end

/-! ### Reading items back -/

/-- The items of a text, behind its header. -/
def itemsText (floats : FloatText) (type : BitVec 32) (items : List (BitVec 32)) : List UInt8 :=
  (items.map (encodeItem floats type)).flatten

section

variable {lib : Library} {floats : FloatText} {s : List UInt8}

theorem itemsText_int_cons (x : BitVec 32) (rest : List (BitVec 32)) :
    itemsText floats xplmTypeIntArray (x :: rest) =
      arrayItemSeparator :: decimalInt x.toInt ++ itemsText floats xplmTypeIntArray rest := by
  simp [itemsText, encodeItem]

theorem separator_not_mem (value : ℤ) : arrayItemSeparator ∉ decimalInt value :=
  not_mem_decimalInt value (by decide) (by decide)

/-- A part of a text, cut out of it. -/
theorem substring_eq {start : ℕ} {text behind : List UInt8} (hs : s.drop start = text ++ behind)
    (hstart : start ≤ s.length) : substring s start text.length = some text := by
  have hlen := congrArg List.length hs
  rw [List.length_drop, List.length_append] at hlen
  rw [substring, if_pos (by omega), List.drop_append_of_le_length hstart, hs, List.append_assoc,
    List.take_left' rfl]

theorem parseValue_int (x : BitVec 32) {count : ℤ} (hcount : 1 ≤ count) :
    parseValue lib floats true (decimalInt x.toInt) count xplmTypeIntArray 4 = some x := by
  have hbounds := BitVec.toInt_lt (x := x)
  have hbounds' := BitVec.le_toInt (x := x)
  have hatoi : atoi lib (decimalInt x.toInt ++ []) = x.toInt :=
    atoi_decimalInt lib endsDigits_nil (by omega) (by omega)
  rw [List.append_nil] at hatoi
  rw [parseValue, if_neg (by omega), if_neg (by decide), if_pos ⟨.inr rfl, Nat.le_refl _⟩,
    if_pos rfl, cString_decimalInt, hatoi, BitVec.ofInt_toInt]

/-- The loop has ended once there is no further separator. -/
theorem parseItems_last {fuel : ℕ} {count offsetSeparator nextOffsetSeparator : ℤ}
    {type : BitVec 32} {i : ℕ} {arr : DynamicArray} (h : nextOffsetSeparator < 0) :
    parseItems lib floats true s count type fuel offsetSeparator nextOffsetSeparator i arr =
      some (some (i, arr)) := by
  cases fuel with
  | zero => rfl
  | succ fuel => rw [parseItems, if_neg (by omega)]

theorem set_behind (done : List (BitVec 32)) (n : ℕ) (x : BitVec 32) :
    (done ++ List.replicate (n + 1) 0).set done.length x = (done ++ [x]) ++ List.replicate n 0 := by
  rw [List.set_append_right _ _ (Nat.le_refl _), Nat.sub_self, List.replicate_succ,
    List.set_cons_zero, List.append_assoc]
  rfl

/-- One pass of the loop over integers: the item behind the separator goes into its place, and the
next separator is the one behind it. -/
theorem parseItems_int_step (hs : cString s = s) (rest : List (BitVec 32)) {x : BitVec 32}
    {done : List (BitVec 32)} {fuel offset n : ℕ} {next : ℤ} (hnext : 0 ≤ next)
    (hdrop : s.drop offset = itemsText floats xplmTypeIntArray (x :: rest)) :
    parseItems lib floats true s s.length xplmTypeIntArray (fuel + 1) offset next done.length
        ⟨4, done ++ List.replicate (n + 1) 0⟩ =
      parseItems lib floats true s s.length xplmTypeIntArray fuel
        (if rest = [] then -1 else ((offset + 1 + (decimalInt x.toInt).length : ℕ) : ℤ))
        (if rest = [] then -1 else ((offset + 1 + (decimalInt x.toInt).length : ℕ) : ℤ))
        (done ++ [x]).length ⟨4, (done ++ [x]) ++ List.replicate n 0⟩ := by
  have hbehind : s.drop (offset + 1) =
      decimalInt x.toInt ++ itemsText floats xplmTypeIntArray rest := by
    rw [← List.drop_drop, hdrop, itemsText_int_cons]
    rfl
  have hlen := congrArg List.length hbehind
  have hpos : 0 < (decimalInt x.toInt).length := by
    obtain ⟨c, t, ht, -⟩ := decimalInt_head x.toInt []
    rw [← List.append_nil (decimalInt x.toInt), ht]
    exact Nat.succ_pos _
  rw [List.length_drop, List.length_append] at hlen
  have hstrpos : strpos s arrayItemSeparator ((offset : ℤ) + 1).toNat =
      if rest = [] then -1 else ((offset + 1 + (decimalInt x.toInt).length : ℕ) : ℤ) := by
    rw [show ((offset : ℤ) + 1).toNat = offset + 1 by omega]
    cases rest with
    | nil =>
      refine strpos_eq_neg_one ?_
      rw [hs, hbehind]
      simpa [itemsText] using separator_not_mem x.toInt
    | cons y rest =>
      rw [if_neg (List.cons_ne_nil _ _), strpos_eq (by rw [hs, hbehind, itemsText_int_cons]; rfl)
        (separator_not_mem x.toInt)]
      omega
  have hitem : (if (offset : ℤ) < (if rest = [] then -1 else
        ((offset + 1 + (decimalInt x.toInt).length : ℕ) : ℤ)) then
      (if rest = [] then -1 else ((offset + 1 + (decimalInt x.toInt).length : ℕ) : ℤ))
      else (s.length : ℤ)) - offset - 1 = (decimalInt x.toInt).length := by
    cases rest with
    | nil =>
      rw [if_pos rfl, if_neg (by omega)]
      simp only [itemsText, List.map_nil, List.flatten_nil, List.length_nil] at hlen
      omega
    | cons y rest =>
      rw [if_neg (List.cons_ne_nil _ _), if_pos (by omega)]
      omega
  have hdata : xplmTypeIntArray ≠ xplmTypeData := by decide
  rw [parseItems, if_pos ⟨by omega, hnext⟩]
  simp only [if_neg hdata, hstrpos, hitem, Int.toNat_natCast]
  rw [if_neg (by omega), show ((offset : ℤ) + 1).toNat = offset + 1 by omega,
    substring_eq hbehind (by omega)]
  simp only [Option.bind_eq_bind, Option.bind_some]
  rw [if_neg (by simp), parseValue_int x (by omega), ← set_behind, List.length_append]
  rfl

/-- From the separator of one item on, the loop reads this item and those behind it. -/
theorem parseItems_int (hs : cString s = s) (done rest : List (BitVec 32)) {x : BitVec 32}
    {fuel offset : ℕ} {next : ℤ} (hnext : 0 ≤ next)
    (hfuel : rest.length < fuel)
    (hdrop : s.drop offset = itemsText floats xplmTypeIntArray (x :: rest)) :
    parseItems lib floats true s s.length xplmTypeIntArray fuel offset next done.length
        ⟨4, done ++ List.replicate (rest.length + 1) 0⟩ =
      some (some ((done ++ x :: rest).length, ⟨4, done ++ x :: rest⟩)) := by
  obtain ⟨fuel, rfl⟩ : ∃ k, fuel = k + 1 := ⟨fuel - 1, by omega⟩
  induction rest generalizing x done fuel offset next with
  | nil =>
    rw [parseItems_int_step hs [] hnext hdrop, if_pos rfl, parseItems_last (by omega)]
    simp
  | cons y rest ih =>
    rw [parseItems_int_step hs (y :: rest) hnext hdrop, if_neg (List.cons_ne_nil _ _)]
    obtain ⟨fuel, rfl⟩ : ∃ k, fuel = k + 1 := ⟨fuel - 1, by rw [List.length_cons] at hfuel; omega⟩
    have hnext' : s.drop (offset + 1 + (decimalInt x.toInt).length) =
        itemsText floats xplmTypeIntArray (y :: rest) := by
      rw [← List.drop_drop, ← List.drop_drop, hdrop, itemsText_int_cons]
      exact List.drop_left' rfl
    rw [show done ++ x :: y :: rest = (done ++ [x]) ++ y :: rest by simp]
    exact ih (done ++ [x]) (Int.natCast_nonneg _) hnext' fuel (by simpa using hfuel)

/-! Bytes -/

theorem itemsText_data_cons (x : BitVec 32) (rest : List (BitVec 32)) :
    itemsText floats xplmTypeData (x :: rest) =
      hexDigit (x.toNat % 256 / 16) :: hexDigit (x.toNat % 16) ::
        itemsText floats xplmTypeData rest := by
  simp only [itemsText, List.map_cons, List.flatten_cons]
  rfl

theorem length_itemsText_data (items : List (BitVec 32)) :
    (itemsText floats xplmTypeData items).length = 2 * items.length := by
  induction items with
  | nil => rfl
  | cons x rest ih =>
    rw [itemsText_data_cons, List.length_cons, List.length_cons, List.length_cons, ih]
    omega

theorem nibble_hexDigit {n : ℕ} (h : n < 16) : nibble (hexDigit n) = some n := by
  have : ∀ n < 16, nibble (hexDigit n) = some n := by decide
  exact this n h

theorem hexDigit_toNat {n : ℕ} (h : n < 16) :
    48 ≤ (hexDigit n).toNat ∧ (hexDigit n).toNat ≤ 70 := by
  have : ∀ n < 16, 48 ≤ (hexDigit n).toNat ∧ (hexDigit n).toNat ≤ 70 := by decide
  exact this n h

theorem parseValue_data {x : BitVec 32} (hx : x.toNat < 256) :
    parseValue lib floats true [hexDigit (x.toNat % 256 / 16), hexDigit (x.toNat % 16)] 2
      xplmTypeData 1 = some x := by
  rw [parseValue, if_neg (by omega), if_neg (by decide), if_neg (by decide), if_neg (by decide),
    if_pos ⟨rfl, Nat.le_refl _, rfl⟩]
  simp only [List.getD_cons_zero, List.getD_cons_succ, nibble_hexDigit (show x.toNat % 256 / 16 < 16
    by omega), nibble_hexDigit (show x.toNat % 16 < 16 by omega), Option.bind_eq_bind,
    Option.bind_some, pure]
  rw [show 16 * (x.toNat % 256 / 16) + x.toNat % 16 = x.toNat by omega, BitVec.ofNat_toNat,
    BitVec.setWidth_eq]

/-- One pass of the loop over bytes: two digits are read, and the next two are behind them. -/
theorem parseItems_data_step (rest : List (BitVec 32)) {x : BitVec 32} {done : List (BitVec 32)}
    {fuel offset n : ℕ} {next : ℤ} (hx : x.toNat < 256) (hnext : 0 ≤ next)
    (hdrop : s.drop (offset + 1) = itemsText floats xplmTypeData (x :: rest)) :
    parseItems lib floats true s s.length xplmTypeData (fuel + 1) offset next done.length
        ⟨1, done ++ List.replicate (n + 1) 0⟩ =
      parseItems lib floats true s s.length xplmTypeData fuel
        (if rest = [] then -1 else ((offset + 2 : ℕ) : ℤ))
        (if rest = [] then -1 else ((offset + 2 : ℕ) : ℤ)) (done ++ [x]).length
        ⟨1, (done ++ [x]) ++ List.replicate n 0⟩ := by
  have hlen := congrArg List.length hdrop
  rw [List.length_drop, length_itemsText_data, List.length_cons] at hlen
  have hlast : (if (s.length : ℤ) ≤ offset + 2 + 1 then (-1 : ℤ) else offset + 2) =
      if rest = [] then -1 else ((offset + 2 : ℕ) : ℤ) := by
    cases rest with
    | nil =>
      rw [List.length_nil] at hlen
      rw [if_pos rfl, if_pos (by omega)]
    | cons y rest =>
      rw [List.length_cons] at hlen
      rw [if_neg (List.cons_ne_nil _ _), if_neg (by omega)]
      rfl
  have hsplit : s.drop (offset + 1) = [hexDigit (x.toNat % 256 / 16), hexDigit (x.toNat % 16)] ++
      itemsText floats xplmTypeData rest := by
    rw [hdrop, itemsText_data_cons]
    rfl
  have htext : substring s (offset + 1) (2 : ℤ).toNat = some _ := substring_eq hsplit (by omega)
  rw [parseItems, if_pos ⟨by omega, hnext⟩]
  simp only [if_true, hlast]
  rw [if_neg (by omega), show ((offset : ℤ) + 1).toNat = offset + 1 by omega, htext]
  simp only [Option.bind_eq_bind, Option.bind_some]
  rw [if_neg (by simp), parseValue_data hx, ← set_behind, List.length_append]
  rfl

/-- From the separator of the header on, the loop reads all bytes. -/
theorem parseItems_data (done rest : List (BitVec 32)) {x : BitVec 32}
    {fuel offset : ℕ} {next : ℤ} (hbytes : ∀ y ∈ x :: rest, y.toNat < 256) (hnext : 0 ≤ next)
    (hfuel : rest.length < fuel)
    (hdrop : s.drop (offset + 1) = itemsText floats xplmTypeData (x :: rest)) :
    parseItems lib floats true s s.length xplmTypeData fuel offset next done.length
        ⟨1, done ++ List.replicate (rest.length + 1) 0⟩ =
      some (some ((done ++ x :: rest).length, ⟨1, done ++ x :: rest⟩)) := by
  obtain ⟨fuel, rfl⟩ : ∃ k, fuel = k + 1 := ⟨fuel - 1, by omega⟩
  have hx := hbytes x List.mem_cons_self
  induction rest generalizing x done fuel offset next with
  | nil =>
    rw [parseItems_data_step [] hx hnext hdrop, if_pos rfl, parseItems_last (by omega)]
    simp
  | cons y rest ih =>
    rw [parseItems_data_step (y :: rest) hx hnext hdrop, if_neg (List.cons_ne_nil _ _)]
    obtain ⟨fuel, rfl⟩ : ∃ k, fuel = k + 1 := ⟨fuel - 1, by rw [List.length_cons] at hfuel; omega⟩
    have hnext' : s.drop (offset + 2 + 1) = itemsText floats xplmTypeData (y :: rest) := by
      rw [show offset + 2 + 1 = offset + 1 + 2 by omega, ← List.drop_drop, hdrop,
        itemsText_data_cons]
      rfl
    have hrest : ∀ z ∈ y :: rest, z.toNat < 256 := fun z hz => hbytes z (List.mem_cons_of_mem x hz)
    rw [show done ++ x :: y :: rest = (done ++ [x]) ++ y :: rest by simp]
    exact ih (done ++ [x]) hrest (Int.natCast_nonneg _) hnext' fuel (by simpa using hfuel)
      (hrest y List.mem_cons_self)

end

/-! ### Round trips -/

theorem separator_not_mem_decimal (n : ℕ) : arrayItemSeparator ∉ decimal n := by
  intro h
  have := isDigit_decimal h
  revert this
  decide

section

variable {lib : Library} {floats : FloatText} {items : List (BitVec 32)}

variable (floats) in
theorem arrayText_int (items : List (BitVec 32)) :
    arrayText floats xplmTypeIntArray items =
      decimal items.length ++ itemsText floats xplmTypeIntArray items := by
  rw [arrayText, encodePieces, if_neg (by decide), List.append_nil]
  rfl

variable (floats) in
theorem arrayText_data (items : List (BitVec 32)) :
    arrayText floats xplmTypeData items =
      decimal items.length ++ arrayItemSeparator :: itemsText floats xplmTypeData items := by
  rw [arrayText, encodePieces, if_pos rfl, List.flatten_cons, List.append_assoc]
  rfl

theorem zero_not_mem_arrayText_int (items : List (BitVec 32)) :
    0 ∉ arrayText floats xplmTypeIntArray items := by
  rw [arrayText_int, List.mem_append, not_or]
  constructor
  · intro h
    exact absurd (isDigit_decimal h) (by decide)
  · induction items with
    | nil => exact List.not_mem_nil
    | cons x rest ih =>
      rw [itemsText_int_cons, List.cons_append, List.mem_cons, List.mem_append]
      rintro (h | h | h)
      · exact absurd h (by decide)
      · exact not_mem_decimalInt _ (by decide) (by decide) h
      · exact ih h

/-- There is one separator for each integer. -/
theorem count_itemsText_int (items : List (BitVec 32)) :
    (itemsText floats xplmTypeIntArray items).count arrayItemSeparator = items.length := by
  induction items with
  | nil => rfl
  | cons x rest ih =>
    rw [itemsText_int_cons, List.cons_append, List.count_cons_self, List.count_append, ih,
      List.count_eq_zero_of_not_mem (separator_not_mem _), Nat.zero_add, List.length_cons]

variable (floats) in
theorem count_arrayText_int (items : List (BitVec 32)) :
    (arrayText floats xplmTypeIntArray items).count arrayItemSeparator = items.length := by
  rw [arrayText_int, List.count_append, List.count_eq_zero_of_not_mem (separator_not_mem_decimal _),
    Nat.zero_add, count_itemsText_int]

theorem atoi_header {n : ℕ} (h : n < 2 ^ 31) : atoi lib (cString (decimal n)) = n := by
  have hatoi : atoi lib (decimalInt n ++ []) = n :=
    atoi_decimalInt lib endsDigits_nil (by omega) (by omega)
  have htext : decimalInt n = decimal n := by
    rw [decimalInt, if_neg (by omega), List.nil_append, Int.natAbs_natCast]
  rw [List.append_nil, htext] at hatoi
  rw [← htext, cString_decimalInt, htext, hatoi]

theorem strpos_header {s behind : List UInt8} {n : ℕ} (hs : cString s = s)
    (htext : s = decimal n ++ arrayItemSeparator :: behind) :
    strpos s arrayItemSeparator 0 = (decimal n).length := by
  rw [strpos_eq (by rw [hs, List.drop_zero, htext]) (separator_not_mem_decimal n)]
  simp

/-- An array of integers is parsed from its text. -/
theorem parseArray_arrayText_int (hitems : items ≠ []) (hlen : items.length < 2 ^ 31) :
    parseArray lib floats true (arrayText floats xplmTypeIntArray items)
      (arrayText floats xplmTypeIntArray items).length xplmTypeIntArray =
        some (some (DynamicArray.ofInts items)) := by
  obtain ⟨x, rest, rfl⟩ := List.exists_cons_of_ne_nil hitems
  have hs : cString (arrayText floats xplmTypeIntArray (x :: rest)) = _ :=
    cString_eq_self (zero_not_mem_arrayText_int (x :: rest))
  have hcount := count_arrayText_int floats (x :: rest)
  have htext := arrayText_int floats (x :: rest)
  generalize arrayText floats xplmTypeIntArray (x :: rest) = s at *
  have hheader : strpos s arrayItemSeparator 0 = (decimal (x :: rest).length).length :=
    strpos_header hs (htext.trans (by rw [itemsText_int_cons]; rfl))
  have hnum : countChars s arrayItemSeparator (s.length : ℤ).toNat = (x :: rest).length := by
    rw [countChars, hs, Int.toNat_natCast, List.take_length, hcount]
  have hdrop : s.drop (decimal (x :: rest).length).length =
      itemsText floats xplmTypeIntArray (x :: rest) := by
    rw [htext]
    exact List.drop_left' rfl
  have hpos := decimal_length_pos (x :: rest).length
  have hslen := congrArg List.length htext
  have hitemsLen : (x :: rest).length ≤ (itemsText floats xplmTypeIntArray (x :: rest)).length :=
    (count_itemsText_int (x :: rest)).symm.trans_le List.count_le_length
  rw [List.length_append] at hslen
  rw [List.length_cons] at hitemsLen
  have hdata : xplmTypeIntArray ≠ xplmTypeData := by decide
  have htmp : substring s 0 (decimal (x :: rest).length).length =
      some (decimal (x :: rest).length) :=
    substring_eq htext (Nat.zero_le _)
  have hloop : parseItems lib floats true s s.length xplmTypeIntArray s.length _ 0 0
      ⟨4, List.replicate (rest.length + 1) 0⟩ = some (some ((x :: rest).length, ⟨4, x :: rest⟩)) :=
    parseItems_int hs [] rest (Int.le_refl 0) (by omega) hdrop
  rw [parseArray, if_neg (by omega), if_neg (by decide)]
  simp only [hheader, Bool.not_true, Bool.false_eq_true, if_false,
    if_neg hdata, Option.bind_eq_bind]
  rw [if_neg (by omega), if_pos (by omega), Int.toNat_natCast, htmp, Option.bind_some,
    atoi_header hlen, hnum]
  have hn : 0 < (x :: rest).length := Nat.succ_pos _
  rw [if_neg fun h => hdata h.1, if_neg (by omega), if_neg (by omega), if_neg (by omega),
    Int.toNat_natCast, Int.toNat_natCast]
  rw [List.length_cons] at hloop ⊢
  rw [hloop, Option.bind_some]
  exact if_neg (by simp)

/-- The text of bytes has no NUL, and no separator but the one of the header. -/
theorem mem_itemsText_data {items : List (BitVec 32)} {c : UInt8}
    (h : c ∈ itemsText floats xplmTypeData items) : 48 ≤ c.toNat := by
  induction items with
  | nil => cases h
  | cons x rest ih =>
    rw [itemsText_data_cons, List.mem_cons, List.mem_cons] at h
    rcases h with rfl | rfl | h
    · exact (hexDigit_toNat (by omega)).1
    · exact (hexDigit_toNat (by omega)).1
    · exact ih h

theorem zero_not_mem_arrayText_data (items : List (BitVec 32)) :
    0 ∉ arrayText floats xplmTypeData items := by
  rw [arrayText_data, List.mem_append, List.mem_cons]
  rintro (h | h | h)
  · exact absurd (isDigit_decimal h) (by decide)
  · exact absurd h (by decide)
  · exact absurd (mem_itemsText_data h) (by decide)

/-- A blob that is not empty is parsed from its text. -/
theorem parseArray_arrayText_data (hitems : items ≠ []) (hbytes : ∀ y ∈ items, y.toNat < 256)
    (hlen : items.length < 2 ^ 31) :
    parseArray lib floats true (arrayText floats xplmTypeData items)
      (arrayText floats xplmTypeData items).length xplmTypeData = some (some ⟨1, items⟩) := by
  obtain ⟨x, rest, rfl⟩ := List.exists_cons_of_ne_nil hitems
  have hs : cString (arrayText floats xplmTypeData (x :: rest)) = _ :=
    cString_eq_self (zero_not_mem_arrayText_data (x :: rest))
  have htext := arrayText_data floats (x :: rest)
  generalize arrayText floats xplmTypeData (x :: rest) = s at *
  have hheader := strpos_header hs htext
  have hdrop : s.drop ((decimal (x :: rest).length).length + 1) =
      itemsText floats xplmTypeData (x :: rest) := by
    rw [htext, ← List.drop_drop, List.drop_left' rfl]
    rfl
  have hpos := decimal_length_pos (x :: rest).length
  have hhex : (itemsText floats xplmTypeData (x :: rest)).length = 2 * (x :: rest).length :=
    length_itemsText_data _
  have hslen : s.length = (decimal (x :: rest).length).length + (2 * (x :: rest).length + 1) := by
    rw [htext, List.length_append, ← hhex]
    rfl
  have hn : 0 < (x :: rest).length := Nat.succ_pos _
  have htmp : substring s 0 (decimal (x :: rest).length).length =
      some (decimal (x :: rest).length) :=
    substring_eq htext (Nat.zero_le _)
  have hloop : parseItems lib floats true s s.length xplmTypeData s.length _ 0 0
      ⟨1, List.replicate (rest.length + 1) 0⟩ = some (some ((x :: rest).length, ⟨1, x :: rest⟩)) :=
    parseItems_data [] rest hbytes (Int.le_refl 0) (by rw [hslen, List.length_cons]; omega) hdrop
  rw [parseArray, if_neg (by omega), if_neg (by decide)]
  simp only [hheader, Bool.not_true, Bool.false_eq_true, if_false, if_true, Option.bind_eq_bind]
  rw [if_neg (by omega), if_pos (by omega), Int.toNat_natCast, htmp, Option.bind_some,
    atoi_header hlen]
  have hstrlen : (s.length : ℤ) - (decimal (x :: rest).length).length - 1 =
      2 * ((x :: rest).length : ℤ) := by
    omega
  rw [hstrlen, Int.mul_tdiv_cancel_left _ (by decide), Int.mul_tmod_right,
    if_neg (fun h => h.2.elim (fun h => h rfl) fun h => h rfl), if_neg (fun h => h.1 rfl),
    if_neg (by omega), if_neg (by omega), Int.toNat_natCast, Int.toNat_natCast]
  rw [List.length_cons] at hloop ⊢
  rw [hloop, Option.bind_some]
  exact if_neg (by simp)

/-! The property, and when it holds -/

/-- The array has a text, and this text is parsed to the same array. -/
def RoundTrips (lib : Library) (floats : FloatText) (type : BitVec 32)
    (arr : DynamicArray) : Prop :=
  ∃ text, encodeArray floats true type (some arr) = some (some text) ∧
    parseArray lib floats true text text.length type = some (some arr)

/-- The number of characters an array of integers is written with. -/
def intArrayLength (items : List (BitVec 32)) : ℕ :=
  (decimal items.length).length + (items.map fun item => 1 + (decimalInt item.toInt).length).sum

/-- The number of characters a blob is written with. -/
def blobLength (items : List UInt8) : ℕ := (decimal items.length).length + 1 + 2 * items.length

variable (floats) in
theorem length_arrayText_int (items : List (BitVec 32)) :
    (arrayText floats xplmTypeIntArray items).length = intArrayLength items := by
  rw [arrayText_int, intArrayLength, List.length_append, Nat.add_left_cancel_iff]
  induction items with
  | nil => rfl
  | cons x rest ih =>
    rw [itemsText_int_cons, List.length_append, ih, List.length_cons, List.map_cons, List.sum_cons]
    omega

variable (floats) in
theorem length_arrayText_data (items : List UInt8) :
    (arrayText floats xplmTypeData (DynamicArray.ofBytes items).items).length =
      blobLength items := by
  rw [arrayText_data, List.length_append, List.length_cons, length_itemsText_data, blobLength,
    DynamicArray.ofBytes, List.length_map]
  omega

/-- The header alone is the text of no array at all, and integers are read from it. -/
theorem roundTrips_int_nil : RoundTrips lib floats xplmTypeIntArray (DynamicArray.ofInts []) :=
  ⟨bytes "0", rfl, rfl⟩

/-- A blob's header is not parsed without its separator. -/
theorem not_roundTrips_data_nil : ¬ RoundTrips lib floats xplmTypeData
    (DynamicArray.ofBytes []) := by
  rintro ⟨text, hencode, hparse⟩
  obtain rfl : bytes "0" = text := Option.some.inj (Option.some.inj hencode)
  exact absurd (Option.some.inj hparse) nofun

theorem intArrayLength_nil_lt : intArrayLength [] < 2 ^ 31 - 1 := by decide

theorem roundTrips_int_iff (items : List (BitVec 32)) :
    RoundTrips lib floats xplmTypeIntArray (DynamicArray.ofInts items) ↔
      intArrayLength items < 2 ^ 31 - 1 := by
  rcases eq_or_ne items [] with rfl | hitems
  · exact iff_of_true roundTrips_int_nil intArrayLength_nil_lt
  · rw [← length_arrayText_int floats]
    constructor
    · rintro ⟨text, hencode, -⟩
      exact Nat.lt_of_not_le fun hle => encodeArray_ne hitems hle text hencode
    · intro hlt
      have hcount := count_arrayText_int floats items
      have hle := List.count_le_length (a := arrayItemSeparator)
        (l := arrayText floats xplmTypeIntArray items)
      exact ⟨_, encodeArray_eq (.inl rfl) hitems hlt, parseArray_arrayText_int hitems (by omega)⟩

theorem roundTrips_data_iff (items : List UInt8) :
    RoundTrips lib floats xplmTypeData (DynamicArray.ofBytes items) ↔
      items ≠ [] ∧ blobLength items < 2 ^ 31 - 1 := by
  rcases eq_or_ne items [] with rfl | hitems
  · exact iff_of_false not_roundTrips_data_nil fun h => h.1 rfl
  · have hne : (DynamicArray.ofBytes items).items ≠ [] := fun h => hitems (List.map_eq_nil_iff.1 h)
    have hlength := length_arrayText_data floats items
    constructor
    · rintro ⟨text, hencode, -⟩
      refine ⟨hitems, Nat.lt_of_not_le fun hle => ?_⟩
      exact encodeArray_ne hne (hlength ▸ hle) text hencode
    · rintro ⟨-, hlt⟩
      have hbytes : ∀ y ∈ (DynamicArray.ofBytes items).items, y.toNat < 256 := by
        simp only [DynamicArray.ofBytes, List.mem_map]
        rintro y ⟨byte, -, rfl⟩
        have hlt := byte.toNat_lt
        rw [BitVec.toNat_ofNat, Nat.mod_eq_of_lt (by omega)]
        exact hlt
      have hcount : (DynamicArray.ofBytes items).items.length < 2 ^ 31 := by
        rw [DynamicArray.ofBytes, List.length_map]
        rw [blobLength] at hlt
        omega
      exact ⟨_, encodeArray_eq (.inr rfl) hne (hlength ▸ hlt),
        parseArray_arrayText_data hne hbytes hcount⟩

/-- **Arrays of integers and blobs come back from their texts exactly if the length of the text and
its terminator is an `int`, and the blob is not empty.** -/
theorem arrays_round_trip_iff (lib : Library) (floats : FloatText) :
    (∀ items : List (BitVec 32),
      RoundTrips lib floats xplmTypeIntArray (DynamicArray.ofInts items) ↔
        intArrayLength items < 2 ^ 31 - 1) ∧
    (∀ items : List UInt8,
      RoundTrips lib floats xplmTypeData (DynamicArray.ofBytes items) ↔
        items ≠ [] ∧ blobLength items < 2 ^ 31 - 1) :=
  ⟨roundTrips_int_iff, roundTrips_data_iff⟩

/-- The empty blob is written as `0`, which is no blob to the parser. -/
theorem parseArray_refuses_empty_blob :
    encodeArray ⟨fun _ => [], fun _ => 0⟩ true xplmTypeData (some (DynamicArray.ofBytes [])) =
        some (some (bytes "0")) ∧
      parseArray ⟨id, fun _ => none, fun text => text.length, fun _ _ => true⟩
        ⟨fun _ => [], fun _ => 0⟩ true (bytes "0") 1 xplmTypeData = some none ∧
      ¬ RoundTrips ⟨id, fun _ => none, fun text => text.length, fun _ _ => true⟩
        ⟨fun _ => [], fun _ => 0⟩ xplmTypeData (DynamicArray.ofBytes []) := by
  refine ⟨rfl, rfl, ?_⟩
  rintro ⟨text, hencode, hparse⟩
  obtain rfl : bytes "0" = text := Option.some.inj (Option.some.inj hencode)
  exact absurd (Option.some.inj hparse) nofun

end

end XprcServer
