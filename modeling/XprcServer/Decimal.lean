import Mathlib.Data.List.TakeWhile
import XprcServer.Server.Handshake

/-!
# Decimal numbers and separators in texts

What `printf` writes for a number, `atoi` reads back, whatever stands behind it as long as that is
no digit (`atoi_decimalInt`); `parse_int`, which compares the text with the number it has read,
accepts it (`parseInt_decimalInt`).  `strpos` finds the first separator (`strpos_eq`).
-/

namespace XprcServer

/-! ### Integers of the machine -/

theorem toInt32_bounds (value : ℤ) : -2 ^ 31 ≤ toInt32 value ∧ toInt32 value < 2 ^ 31 := by
  have h1 := Int.le_bmod (x := value) (m := 2 ^ 32) (by omega)
  have h2 := Int.bmod_lt (x := value) (m := 2 ^ 32) (by omega)
  rw [toInt32]
  omega

theorem toInt32_of_lt {value : ℤ} (h1 : -2 ^ 31 ≤ value) (h2 : value < 2 ^ 31) :
    toInt32 value = value := Int.bmod_eq_of_le (by omega) (by omega)

/-! ### Digits -/

theorem digitChar_toNat {d : ℕ} (h : d < 10) :
    UInt8.ofNat (Nat.digitChar d).toNat = UInt8.ofNat (48 + d) := by
  have : ∀ d < 10, UInt8.ofNat (Nat.digitChar d).toNat = UInt8.ofNat (48 + d) := by decide
  exact this d h

/-- A number is written by its last digit behind those of a tenth of it. -/
theorem decimal_eq (n : ℕ) :
    decimal n = (if n < 10 then [] else decimal (n / 10)) ++ [UInt8.ofNat (48 + n % 10)] := by
  rw [decimal, Nat.toDigits_eq_if (by omega)]
  split_ifs with h
  · simp [digitChar_toNat h, Nat.mod_eq_of_lt h]
  · simp [decimal, digitChar_toNat (Nat.mod_lt n (by omega))]

theorem decimal_ne_nil (n : ℕ) : decimal n ≠ [] := by
  rw [decimal_eq]
  simp

theorem decimal_length_le_iff (n : ℕ) {k : ℕ} (hk : 0 < k) :
    (decimal n).length ≤ k ↔ n < 10 ^ k := by
  rw [decimal, List.length_map]
  exact Nat.length_toDigits_le_iff (by omega) hk

theorem decimal_length_pos (n : ℕ) : 0 < (decimal n).length :=
  List.length_pos_iff.2 (decimal_ne_nil n)

theorem digit_toNat (n : ℕ) : (UInt8.ofNat (48 + n % 10)).toNat = 48 + n % 10 := by
  rw [UInt8.toNat_ofNat']
  omega

theorem isDigit_decimal {n : ℕ} {c : UInt8} (h : c ∈ decimal n) : isDigit c = true := by
  induction n using Nat.strongRecOn with
  | ind n ih =>
    rw [decimal_eq, List.mem_append] at h
    rcases h with h | h
    · split_ifs at h with hn
      · cases h
      · exact ih (n / 10) (by omega) h
    · rw [List.mem_singleton.1 h]
      simp only [isDigit, Bool.and_eq_true, decide_eq_true_eq, UInt8.le_iff_toNat_le, digit_toNat,
        UInt8.reduceToNat]
      omega

/-- The value of the digits of a number. -/
theorem foldl_decimal (n : ℕ) :
    (decimal n).foldl (fun (value : ℤ) (ch : UInt8) => 10 * value + (ch.toNat - 48 : ℕ)) 0 = n := by
  induction n using Nat.strongRecOn with
  | ind n ih =>
    rw [decimal_eq, List.foldl_append]
    simp only [List.foldl_cons, List.foldl_nil, digit_toNat]
    split_ifs with hn
    · simp only [List.foldl_nil]
      omega
    · rw [ih (n / 10) (by omega)]
      omega

/-- A text that does not go on with a digit. -/
def EndsDigits (rest : List UInt8) : Prop := ∀ c ∈ rest.head?, isDigit c = false

theorem endsDigits_nil : EndsDigits [] := fun _ h => nomatch h

theorem takeWhile_isDigit {n : ℕ} {rest : List UInt8} (h : EndsDigits rest) :
    (decimal n ++ rest).takeWhile isDigit = decimal n := by
  rw [List.takeWhile_append_of_pos fun c hc => isDigit_decimal hc]
  cases rest with
  | nil => simp
  | cons c rest => simp [h c rfl]

theorem digitsValue_decimal {n : ℕ} {rest : List UInt8} (h : EndsDigits rest) :
    digitsValue (decimal n ++ rest) = n := by
  rw [digitsValue, takeWhile_isDigit h, foldl_decimal]

/-! ### Reading numbers -/

/-- The number at the start of a text, behind white space and a sign. -/
def textValue (s : List UInt8) : ℤ :=
  match s.dropWhile isSpace with
  | 45 :: s => -digitsValue s
  | 43 :: s => digitsValue s
  | s => digitsValue s

/-- What is written for a number starts neither with white space nor with `+`. -/
theorem decimalInt_head (value : ℤ) (rest : List UInt8) :
    ∃ c s, decimalInt value ++ rest = c :: s ∧ isSpace c = false ∧ c ≠ 43 ∧
      (c = 45 ↔ value < 0) := by
  by_cases h : value < 0
  · exact ⟨45, _, by rw [decimalInt, if_pos h]; rfl, rfl, by decide, by simp [h]⟩
  · obtain ⟨c, s, hs⟩ := List.exists_cons_of_ne_nil (decimal_ne_nil value.natAbs)
    have hdigit : isDigit c = true := isDigit_decimal (n := value.natAbs) (hs ▸ List.mem_cons_self)
    refine ⟨c, s ++ rest, by rw [decimalInt, if_neg h, hs]; rfl, ?_⟩
    simp only [isDigit, Bool.and_eq_true, decide_eq_true_eq, UInt8.le_iff_toNat_le,
      UInt8.reduceToNat] at hdigit
    refine ⟨?_, ?_, ?_⟩
    · simp only [isSpace, Bool.or_eq_false_iff, decide_eq_false_iff_not, Bool.and_eq_false_iff,
        UInt8.le_iff_toNat_le, ← UInt8.toNat_inj, UInt8.reduceToNat]
      omega
    · rw [Ne, ← UInt8.toNat_inj]
      simp only [UInt8.reduceToNat]
      omega
    · rw [← UInt8.toNat_inj]
      simp only [UInt8.reduceToNat, h, iff_false]
      omega

/-- **Reading gives back the number that was written.** -/
theorem textValue_decimalInt {value : ℤ} {rest : List UInt8} (h : EndsDigits rest) :
    textValue (decimalInt value ++ rest) = value := by
  obtain ⟨c, s, hs, hspace, hplus, hminus⟩ := decimalInt_head value rest
  have hdrop : (decimalInt value ++ rest).dropWhile isSpace = decimalInt value ++ rest := by
    rw [hs, List.dropWhile_cons, hspace]
    rfl
  rw [textValue, hdrop]
  by_cases hneg : value < 0
  · rw [decimalInt, if_pos hneg]
    simp only [List.cons_append, List.nil_append, digitsValue_decimal h]
    omega
  · have hc : c ≠ 45 := fun hc => hneg (hminus.1 hc)
    have htext : decimalInt value ++ rest = decimal value.natAbs ++ rest := by
      rw [decimalInt, if_neg hneg, List.nil_append]
    have hvalue := digitsValue_decimal (n := value.natAbs) h
    rw [← htext, hs] at hvalue
    rw [hs]
    split
    · rename_i heq
      exact absurd (List.cons.inj heq).1 hc
    · rename_i heq
      exact absurd (List.cons.inj heq).1 hplus
    · rw [hvalue]
      omega

/-- `atoi` on a text: its number, if that is an `int`. -/
theorem atoi_eq (lib : Library) (s : List UInt8) :
    atoi lib s = if -2 ^ 31 ≤ textValue s ∧ textValue s < 2 ^ 31 then textValue s
      else toInt32 (lib.atoiOverflow (textValue s)) := rfl

theorem atoi_decimalInt (lib : Library) {value : ℤ} {rest : List UInt8} (h : EndsDigits rest)
    (h1 : -2 ^ 31 ≤ value) (h2 : value < 2 ^ 31) :
    atoi lib (decimalInt value ++ rest) = value := by
  rw [atoi_eq, textValue_decimalInt h, if_pos ⟨h1, h2⟩]

/-! ### Parsing whole texts -/

/-- `parse_int`: the text has to be what `printf` writes for the number read from it. -/
def parseInt (lib : Library) (s : List UInt8) : Option ℤ :=
  let parsed := atoi lib (cString s)
  if cString s = decimalInt parsed then some parsed else none

/-- The characters of a number are digits, behind a `-` maybe. -/
theorem mem_decimalInt {value : ℤ} {c : UInt8} (h : c ∈ decimalInt value) :
    c = 45 ∨ 48 ≤ c.toNat ∧ c.toNat ≤ 57 := by
  rw [decimalInt, List.mem_append] at h
  rcases h with h | h
  · split_ifs at h
    · exact .inl (List.mem_singleton.1 h)
    · cases h
  · have := isDigit_decimal h
    simp only [isDigit, Bool.and_eq_true, decide_eq_true_eq, UInt8.le_iff_toNat_le,
      UInt8.reduceToNat] at this
    exact .inr this

/-- No character outside of these occurs in a number. -/
theorem not_mem_decimalInt (value : ℤ) {c : UInt8} (h1 : c ≠ 45)
    (h2 : c.toNat < 48 ∨ 57 < c.toNat) : c ∉ decimalInt value := by
  intro h
  rcases mem_decimalInt h with h | h
  · exact h1 h
  · omega

theorem cString_eq_self {s : List UInt8} (h : 0 ∉ s) : cString s = s := by
  refine List.takeWhile_eq_self_iff.2 fun c hc => ?_
  simp only [ne_eq, decide_not, Bool.not_eq_true', decide_eq_false_iff_not]
  rintro rfl
  exact h hc

theorem zero_not_mem_cString (s : List UInt8) : 0 ∉ cString s := by
  intro h
  have := List.mem_takeWhile_imp h
  simp at this

theorem cString_decimalInt (value : ℤ) : cString (decimalInt value) = decimalInt value :=
  cString_eq_self (not_mem_decimalInt value (by decide) (by decide))

theorem parseInt_decimalInt (lib : Library) {value : ℤ} (h1 : -2 ^ 31 ≤ value)
    (h2 : value < 2 ^ 31) : parseInt lib (decimalInt value) = some value := by
  have hatoi : atoi lib (decimalInt value ++ []) = value :=
    atoi_decimalInt lib endsDigits_nil h1 h2
  rw [List.append_nil] at hatoi
  simp only [parseInt, cString_decimalInt, hatoi, if_true]

/-- `atoll`: the number of the text, if that is a `long long`; otherwise the C library decides. -/
def atoll (overflow : ℤ → ℤ) (s : List UInt8) : ℤ :=
  if -2 ^ 63 ≤ textValue s ∧ textValue s < 2 ^ 63 then textValue s
  else (overflow (textValue s)).bmod (2 ^ 64)

/-- `parse_longlong` -/
def parseLonglong (overflow : ℤ → ℤ) (s : List UInt8) : Option ℤ :=
  let parsed := atoll overflow (cString s)
  if cString s = decimalInt parsed then some parsed else none

/-- `parse_uint32` -/
def parseUint32 (overflow : ℤ → ℤ) (s : List UInt8) : Option UInt32 :=
  match parseLonglong overflow s with
  | none => none
  | some parsed =>
    if parsed < 0 ∨ parsed > 2 ^ 32 - 1 then none else some (UInt32.ofNat parsed.toNat)

/-- `parse_uint32` accepts what is written for a `uint32_t`. -/
theorem parseUint32_decimalInt (overflow : ℤ → ℤ) (value : UInt32) :
    parseUint32 overflow (decimalInt value.toNat) = some value := by
  have hlt := value.toNat_lt
  have htext : textValue (decimalInt value.toNat ++ []) = value.toNat :=
    textValue_decimalInt endsDigits_nil
  rw [List.append_nil] at htext
  have hatoll : atoll overflow (decimalInt value.toNat) = value.toNat := by
    rw [atoll, htext, if_pos (by omega)]
  have hparse : parseLonglong overflow (decimalInt value.toNat) = some (value.toNat : ℤ) := by
    simp only [parseLonglong, cString_decimalInt, hatoll, if_true]
  simp only [parseUint32, hparse]
  rw [if_neg (by omega), Int.toNat_natCast, UInt32.ofNat_toNat]

/-! ### Separators -/

/-- `strpos` for a needle of one character, from a start that is not negative. -/
def strpos (s : List UInt8) (needle : UInt8) (start : ℕ) : ℤ :=
  match ((cString s).drop start).idxOf? needle with
  | some i => start + i
  | none => -1

/-- `count_chars` -/
def countChars (s : List UInt8) (needle : UInt8) (length : ℕ) : ℕ :=
  ((cString s).take length).count needle

theorem strpos_eq {s before behind : List UInt8} {needle : UInt8} {start : ℕ}
    (hs : (cString s).drop start = before ++ needle :: behind) (hbefore : needle ∉ before) :
    strpos s needle start = start + before.length := by
  have hidx : (before ++ needle :: behind).idxOf? needle = some before.length := by
    rw [List.idxOf?_eq_some_iff]
    refine ⟨by simp, by simp, fun j hj => ?_⟩
    rw [List.getElem_append_left hj]
    intro heq
    exact hbefore (heq ▸ List.getElem_mem hj)
  rw [strpos, hs, hidx]

theorem strpos_eq_neg_one {s : List UInt8} {needle : UInt8} {start : ℕ}
    (h : needle ∉ (cString s).drop start) : strpos s needle start = -1 := by
  rw [strpos, List.idxOf?_eq_none_iff.2 h]

end XprcServer
