import XprcServer.Decimal

/-!
# Parsing numbers by writing them again

`parse_int` and `parse_longlong` take any text to `atoi` or `atoll` and accept it if `printf` writes
the same text for the number that came back; `parse_uint32` then asks for the range of its type.  Of
the C library only this is assumed: a text that begins with a decimal number in the range of the
result gives that number, and every other text gives some number in that range.

* `CanonicalDecimal` : how a number is written, without reference to `printf`;
* `canonicalDecimal_iff` : this is what `printf` writes;
* `parse_canonical` : all three accept just the canonical texts of the numbers in their range, and
  the destination is written only then;
* `parseIntTo_toAtoi`, `parseInt_eq_some_iff` : so for the `parse_int` of the handshake and the
  commands.
-/

namespace XprcServer

/-! ### Texts of numbers -/

/-- The digits of a number without leading zeros -/
structure CanonicalDigits (digits : List UInt8) (n : ℕ) : Prop where
  ne_nil : digits ≠ []
  digit : ∀ ch ∈ digits, isDigit ch = true
  leadingZero : digits.head? = some 48 → digits = [48]
  value : digitsValue digits = n

/-- The canonical text of a number: digits, behind a `-` for a negative one. -/
inductive CanonicalDecimal : List UInt8 → ℤ → Prop where
  | nonnegative {digits : List UInt8} {n : ℕ} (canonical : CanonicalDigits digits n) :
      CanonicalDecimal digits n
  | negative {digits : List UInt8} {n : ℕ} (canonical : CanonicalDigits digits n) (pos : 0 < n) :
      CanonicalDecimal (45 :: digits) (-n)

/-- A text begins with a decimal number: behind white space and maybe a sign, all digits up to
something else. -/
inductive LeadingNumber : List UInt8 → ℤ → Prop where
  | unsigned {spaces digits rest : List UInt8} (space : ∀ ch ∈ spaces, isSpace ch = true)
      (ne_nil : digits ≠ []) (digit : ∀ ch ∈ digits, isDigit ch = true) (ends : EndsDigits rest) :
      LeadingNumber (spaces ++ (digits ++ rest)) (digitsValue digits)
  | plus {spaces digits rest : List UInt8} (space : ∀ ch ∈ spaces, isSpace ch = true)
      (ne_nil : digits ≠ []) (digit : ∀ ch ∈ digits, isDigit ch = true) (ends : EndsDigits rest) :
      LeadingNumber (spaces ++ 43 :: (digits ++ rest)) (digitsValue digits)
  | minus {spaces digits rest : List UInt8} (space : ∀ ch ∈ spaces, isSpace ch = true)
      (ne_nil : digits ≠ []) (digit : ∀ ch ∈ digits, isDigit ch = true) (ends : EndsDigits rest) :
      LeadingNumber (spaces ++ 45 :: (digits ++ rest)) (-digitsValue digits)

variable {digits s : List UInt8} {n : ℕ} {value lo hi : ℤ}

/-- A digit written behind a number that is not zero. -/
theorem decimal_snoc (hn : 0 < n) {ch : UInt8} (hch : isDigit ch = true) :
    decimal (10 * n + (ch.toNat - 48)) = decimal n ++ [ch] := by
  obtain ⟨hle, hge⟩ := (isDigit_iff _).1 hch
  rw [decimal_eq, if_neg (by omega), show (10 * n + (ch.toNat - 48)) / 10 = n by omega,
    show 48 + (10 * n + (ch.toNat - 48)) % 10 = ch.toNat by omega, UInt8.ofNat_toNat]

/-- Digits behind a number that is not zero; the induction is on the digits, with the number read so
far. -/
theorem decimal_append (hn : 0 < n) (hdigit : ∀ ch ∈ digits, isDigit ch = true) :
    ∃ m : ℕ, digits.foldl (fun (value : ℤ) ch => 10 * value + (ch.toNat - 48 : ℕ)) n = m ∧
      decimal m = decimal n ++ digits := by
  induction digits generalizing n with
  | nil => exact ⟨n, rfl, (List.append_nil _).symm⟩
  | cons ch digits ih =>
    have hch := hdigit ch List.mem_cons_self
    obtain ⟨m, hm, htext⟩ := ih (by omega : 0 < 10 * n + (ch.toNat - 48))
      fun c hc => hdigit c (List.mem_cons_of_mem _ hc)
    refine ⟨m, ?_, ?_⟩
    · rw [List.foldl_cons, ← hm]
      push_cast
      rfl
    · rw [htext, decimal_snoc hn hch, List.append_assoc, List.singleton_append]

theorem decimal_head (hn : 0 < n) : (decimal n).head? ≠ some 48 := by
  induction n using Nat.strongRecOn with
  | ind n ih =>
    rw [decimal_eq]
    split_ifs with h
    · rw [List.nil_append, List.head?_cons, Ne, Option.some_inj, ← UInt8.toNat_inj, digit_toNat]
      simp only [UInt8.reduceToNat]
      omega
    · have hhead := ih (n / 10) (by omega) (by omega)
      rwa [List.head?_append_of_ne_nil _ (decimal_ne_nil _)]

theorem takeWhile_isDigit_eq (hdigit : ∀ ch ∈ digits, isDigit ch = true) :
    digits.takeWhile isDigit = digits := List.takeWhile_eq_self_iff.2 hdigit

/-- **The canonical digits of a number are those that `printf` writes.** -/
theorem canonicalDigits_iff : CanonicalDigits digits n ↔ digits = decimal n := by
  constructor
  · rintro ⟨hne, hdigit, hzero, hvalue⟩
    rw [digitsValue, takeWhile_isDigit_eq hdigit] at hvalue
    obtain ⟨ch, digits, rfl⟩ := List.exists_cons_of_ne_nil hne
    obtain ⟨hle, hge⟩ := (isDigit_iff _).1 (hdigit ch List.mem_cons_self)
    by_cases hch : ch = 48
    · subst hch
      obtain rfl : digits = [] := (List.cons.inj (hzero rfl)).2
      obtain rfl : n = 0 := by simpa using hvalue.symm
      rfl
    · have hpos : 0 < ch.toNat - 48 := by
        have hne : ch.toNat ≠ 48 := fun h => hch (UInt8.toNat_inj.1 h)
        omega
      have hfirst : decimal (ch.toNat - 48) = [ch] := by
        rw [decimal_eq, if_pos (by omega), List.nil_append,
          show 48 + (ch.toNat - 48) % 10 = ch.toNat by omega, UInt8.ofNat_toNat]
      obtain ⟨m, hm, htext⟩ := decimal_append hpos
        fun c hc => hdigit c (List.mem_cons_of_mem _ hc)
      rw [List.foldl_cons, Int.mul_zero, Int.zero_add, hm] at hvalue
      rw [← Int.ofNat_inj.1 hvalue, htext, hfirst, List.singleton_append]
  · rintro rfl
    refine ⟨decimal_ne_nil n, fun ch h => isDigit_decimal h, fun h => ?_, ?_⟩
    · obtain rfl : n = 0 := Nat.eq_zero_of_not_pos fun hn => decimal_head hn h
      rfl
    · have := digitsValue_decimal (n := n) endsDigits_nil
      rwa [List.append_nil] at this

/-- **The canonical text of a number is what `printf` writes for it.** -/
theorem canonicalDecimal_iff : CanonicalDecimal s value ↔ s = decimalInt value := by
  constructor
  · rintro (⟨canonical⟩ | ⟨canonical, hpos⟩)
    · rw [canonicalDigits_iff.1 canonical, decimalInt, if_neg (by omega), Int.natAbs_natCast,
        List.nil_append]
    · rw [canonicalDigits_iff.1 canonical, decimalInt, if_pos (by omega), Int.natAbs_neg,
        Int.natAbs_natCast, List.singleton_append]
  · rintro rfl
    have hdigits : CanonicalDigits (decimal value.natAbs) value.natAbs := canonicalDigits_iff.2 rfl
    by_cases h : value < 0
    · have hvalue : value = -(value.natAbs : ℤ) := by omega
      rw [decimalInt, if_pos h, List.singleton_append]
      conv => rhs; rw [hvalue]
      exact .negative hdigits (by omega)
    · have hvalue : value = (value.natAbs : ℤ) := by omega
      rw [decimalInt, if_neg h, List.nil_append]
      conv => rhs; rw [hvalue]
      exact .nonnegative hdigits

/-- What is written for a number begins with that number. -/
theorem leadingNumber_decimalInt (value : ℤ) : LeadingNumber (decimalInt value) value := by
  have hdigit : ∀ ch ∈ decimal value.natAbs, isDigit ch = true := fun ch h => isDigit_decimal h
  have htext : digitsValue (decimal value.natAbs) = value.natAbs :=
    (canonicalDigits_iff.2 rfl).value
  have hspace : ∀ ch ∈ ([] : List UInt8), isSpace ch = true := fun ch h =>
    absurd h List.not_mem_nil
  by_cases h : value < 0
  · have hnumber := LeadingNumber.minus hspace (decimal_ne_nil value.natAbs) hdigit endsDigits_nil
    rw [htext, List.append_nil, List.nil_append] at hnumber
    rw [decimalInt, if_pos h, List.singleton_append]
    rwa [show -(value.natAbs : ℤ) = value by omega] at hnumber
  · have hnumber := LeadingNumber.unsigned hspace (decimal_ne_nil value.natAbs)
        hdigit endsDigits_nil
    rw [htext, List.append_nil, List.nil_append] at hnumber
    rw [decimalInt, if_neg h, List.nil_append]
    rwa [show (value.natAbs : ℤ) = value by omega] at hnumber

/-! ### The parsers -/

/-- `atoi` or `atoll`, for a type with the values from `lo` to `hi` -/
structure TextToNumber (lo hi : ℤ) where
  read : List UInt8 → ℤ
  le_read : ∀ s, lo ≤ read s
  read_le : ∀ s, read s ≤ hi
  read_eq : ∀ {s value}, LeadingNumber s value → lo ≤ value → value ≤ hi → read s = value

/-- `dynamic_sprintf` for a format that writes `text`; `memory` is the outcome of the allocation. -/
def dynamicSprintf (memory : Bool) (text : List UInt8) : Option (List UInt8) :=
  if text.length < 1 then none else if memory then some text else none

/-- What `parse_int` and `parse_longlong` have in common: whether the text could be parsed, and what
the destination holds then. -/
def parseNumber (library : TextToNumber lo hi) (memory : Bool) (dest : ℤ) (s : List UInt8) :
    Bool × ℤ :=
  let parsed := library.read (cString s)
  match dynamicSprintf memory (decimalInt parsed) with
  | none => (false, dest)
  | some verification => if cString s = verification then (true, parsed) else (false, dest)

/-- `INT_MIN` and `INT_MAX` -/
abbrev Atoi := TextToNumber (-2 ^ 31) (2 ^ 31 - 1)

/-- `LLONG_MIN` and `LLONG_MAX` -/
abbrev Atoll := TextToNumber (-2 ^ 63) (2 ^ 63 - 1)

/-- `parse_int` -/
def parseIntTo (atoi : Atoi) (memory : Bool) (dest : ℤ) (s : List UInt8) : Bool × ℤ :=
  parseNumber atoi memory dest s

/-- `parse_longlong` -/
def parseLonglongTo (atoll : Atoll) (memory : Bool) (dest : ℤ) (s : List UInt8) : Bool × ℤ :=
  parseNumber atoll memory dest s

/-- `parse_uint32` -/
def parseUint32To (atoll : Atoll) (memory : Bool) (dest : UInt32) (s : List UInt8) :
    Bool × UInt32 :=
  match parseLonglongTo atoll memory (-1) s with
  | (false, _) => (false, dest)
  | (true, parsed) =>
    if parsed < 0 ∨ parsed > 2 ^ 32 - 1 then (false, dest) else (true, UInt32.ofNat parsed.toNat)

variable {library : TextToNumber lo hi} {memory : Bool} {dest : ℤ}

theorem dynamicSprintf_decimalInt (memory : Bool) (value : ℤ) :
    dynamicSprintf memory (decimalInt value) = if memory then some (decimalInt value) else
    none := by
  have hpos : ¬ (decimalInt value).length < 1 := by
    have := decimal_length_pos value.natAbs
    rw [decimalInt, List.length_append]
    omega
  rw [dynamicSprintf, if_neg hpos]

/-- The number that was read stands in the text iff the text is the canonical one of a number in the
range: of such a text `atoi` gives that number. -/
theorem eq_decimalInt_read_iff :
    s = decimalInt (library.read s) ↔ ∃ value, lo ≤ value ∧ value ≤ hi ∧
    CanonicalDecimal s value := by
  constructor
  · intro h
    exact ⟨library.read s, library.le_read s, library.read_le s, canonicalDecimal_iff.2 h⟩
  · rintro ⟨value, hlo, hhi, hvalue⟩
    obtain rfl := canonicalDecimal_iff.1 hvalue
    rw [library.read_eq (leadingNumber_decimalInt value) hlo hhi]

theorem CanonicalDecimal.unique {value' : ℤ} (h : CanonicalDecimal s value)
    (h' : CanonicalDecimal s value') : value = value' := by
  have hvalue : textValue (decimalInt value ++ []) = value := textValue_decimalInt endsDigits_nil
  rw [List.append_nil, ← canonicalDecimal_iff.1 h, canonicalDecimal_iff.1 h'] at hvalue
  have hvalue' : textValue (decimalInt value' ++ []) = value' :=
    textValue_decimalInt endsDigits_nil
  rw [List.append_nil] at hvalue'
  rw [← hvalue, hvalue']

/-- What a parser does: it succeeds on the canonical texts of its numbers if memory can be
allocated, stores the number then, and leaves the destination as it is otherwise. -/
structure ParsesCanonical (lo hi : ℤ) (s : List UInt8) (memory : Bool) (success : Bool)
    (stored dest : ℤ) : Prop where
  success_iff : success = true ↔
    memory = true ∧ ∃ value, lo ≤ value ∧ value ≤ hi ∧ CanonicalDecimal (cString s) value
  stores : success = true → ∀ value, CanonicalDecimal (cString s) value → stored = value
  unchanged : success = false → stored = dest

theorem parseNumber_spec (library : TextToNumber lo hi) (memory : Bool) (dest : ℤ)
    (s : List UInt8) :
    ParsesCanonical lo hi s memory (parseNumber library memory dest s).1
      (parseNumber library memory dest s).2 dest := by
  rw [parseNumber, dynamicSprintf_decimalInt]
  cases memory with
  | false => exact ⟨by simp, by simp, by simp⟩
  | true =>
    by_cases h : cString s = decimalInt (library.read (cString s))
    · simp only [if_true, ← h]
      refine ⟨by simpa using eq_decimalInt_read_iff.1 h, fun _ value hvalue => ?_, by simp⟩
      exact (canonicalDecimal_iff.2 h).unique hvalue
    · simp only [if_true, if_neg h]
      refine ⟨?_, by simp, by simp⟩
      simpa using mt eq_decimalInt_read_iff.2 h

theorem parseUint32To_spec (atoll : Atoll) (memory : Bool) (dest : UInt32) (s : List UInt8) :
    ParsesCanonical 0 (2 ^ 32 - 1) s memory (parseUint32To atoll memory dest s).1
      (parseUint32To atoll memory dest s).2.toNat dest.toNat := by
  have hspec := parseNumber_spec atoll memory (-1) s
  rw [parseUint32To, parseLonglongTo]
  revert hspec
  generalize parseNumber atoll memory (-1) s = result
  obtain ⟨success, parsed⟩ := result
  intro hspec
  cases success with
  | false =>
    -- no `long long`, so no `uint32_t` either
    refine ⟨iff_of_false Bool.false_ne_true ?_, by simp, by simp⟩
    rintro ⟨hmemory, value, hlo, hhi, hvalue⟩
    exact Bool.false_ne_true
      (hspec.success_iff.2 ⟨hmemory, value, by omega, by omega, hvalue⟩)
  | true =>
    obtain ⟨hmemory, value, -, -, hvalue⟩ := hspec.success_iff.1 rfl
    obtain rfl : parsed = value := hspec.stores rfl value hvalue
    by_cases hrange : parsed < 0 ∨ parsed > 2 ^ 32 - 1
    · simp only [if_pos hrange]
      refine ⟨iff_of_false Bool.false_ne_true ?_, by simp, by simp⟩
      rintro ⟨-, value, hlo, hhi, hvalue'⟩
      have := hvalue.unique hvalue'
      omega
    · simp only [if_neg hrange]
      refine ⟨iff_of_true rfl ⟨hmemory, parsed, by omega, by omega, hvalue⟩,
        fun _ value hvalue' => ?_, by simp⟩
      rw [← hvalue.unique hvalue', UInt32.toNat_ofNat']
      omega

/-! ### A C library -/

theorem isSpace_of_isDigit {ch : UInt8} (h : isDigit ch = true) : isSpace ch = false := by
  obtain ⟨hle, hge⟩ := (isDigit_iff ch).1 h
  simp only [isSpace, Bool.or_eq_false_iff, decide_eq_false_iff_not, Bool.and_eq_false_iff,
    UInt8.le_iff_toNat_le, ← UInt8.toNat_inj, UInt8.reduceToNat]
  omega

theorem dropWhile_isSpace {spaces : List UInt8} (hspace : ∀ ch ∈ spaces, isSpace ch = true)
    {ch : UInt8} (hch : isSpace ch = false) (rest : List UInt8) :
    (spaces ++ ch :: rest).dropWhile isSpace = ch :: rest := by
  rw [List.dropWhile_append_of_pos hspace, List.dropWhile_cons, hch]
  rfl

/-- The digits are read up to something else. -/
theorem digitsValue_append {rest : List UInt8} (hdigit : ∀ ch ∈ digits, isDigit ch = true)
    (hrest : EndsDigits rest) : digitsValue (digits ++ rest) = digitsValue digits := by
  have htake : rest.takeWhile isDigit = [] := by
    cases rest with
    | nil => rfl
    | cons ch rest => simp [hrest ch rfl]
  rw [digitsValue, digitsValue, List.takeWhile_append_of_pos hdigit, htake, List.append_nil,
    takeWhile_isDigit_eq hdigit]

theorem LeadingNumber.textValue (h : LeadingNumber s value) : textValue s = value := by
  cases h with
  | @unsigned spaces digits rest space ne_nil digit ends =>
    obtain ⟨ch, digits, rfl⟩ := List.exists_cons_of_ne_nil ne_nil
    have hch := digit ch List.mem_cons_self
    obtain ⟨hle, hge⟩ := (isDigit_iff ch).1 hch
    rw [XprcServer.textValue, List.cons_append, dropWhile_isSpace space (isSpace_of_isDigit hch)]
    split
    · rename_i heq
      obtain ⟨rfl, -⟩ := List.cons.inj heq
      simp at hle
    · rename_i heq
      obtain ⟨rfl, -⟩ := List.cons.inj heq
      simp at hle
    · exact digitsValue_append digit ends
  | plus space ne_nil digit ends =>
    rw [XprcServer.textValue, dropWhile_isSpace space rfl]
    exact digitsValue_append digit ends
  | minus space ne_nil digit ends =>
    rw [XprcServer.textValue, dropWhile_isSpace space rfl]
    exact congrArg Neg.neg (digitsValue_append digit ends)

/-- A C library that gives the nearest number of the range -/
def TextToNumber.saturating (h : lo ≤ hi) : TextToNumber lo hi where
  read s := max lo (min hi (textValue s))
  le_read _ := by omega
  read_le _ := by omega
  read_eq hs hlo hhi := by
    rw [hs.textValue]
    omega

/-- **Each parser accepts just the canonical texts of the numbers of its type.** -/
theorem parse_canonical (atoi : Atoi) (atoll : Atoll) (memory : Bool) (s : List UInt8) :
    (∀ dest, ParsesCanonical (-2 ^ 31) (2 ^ 31 - 1) s memory (parseIntTo atoi memory dest s).1
      (parseIntTo atoi memory dest s).2 dest) ∧
    (∀ dest, ParsesCanonical (-2 ^ 63) (2 ^ 63 - 1) s memory
      (parseLonglongTo atoll memory dest s).1 (parseLonglongTo atoll memory dest s).2 dest) ∧
    ∀ dest : UInt32, ParsesCanonical 0 (2 ^ 32 - 1) s memory
      (parseUint32To atoll memory dest s).1 (parseUint32To atoll memory dest s).2.toNat
      dest.toNat :=
  ⟨fun dest => parseNumber_spec atoi memory dest s,
    fun dest => parseNumber_spec atoll memory dest s,
    fun dest => parseUint32To_spec atoll memory dest s⟩

/-- `-12` is an `int`, and no `uint32_t`. -/
theorem parse_canonical_minus_twelve :
    let atoi : Atoi := .saturating (by decide)
    let atoll : Atoll := .saturating (by decide)
    parseIntTo atoi true 7 (bytes "-12") = (true, -12) ∧
      (parseUint32To atoll true 7 (bytes "-12")).2.toNat = (7 : UInt32).toNat := by
  intro atoi atoll
  obtain ⟨hint, -, huint⟩ := parse_canonical atoi atoll true (bytes "-12")
  have hdigits : CanonicalDigits (bytes "12") 12 :=
    ⟨by decide, List.all_eq_true.1 rfl, by decide, by decide⟩
  have hvalue : CanonicalDecimal (cString (bytes "-12")) (-12) := .negative hdigits (by decide)
  have hsuccess := (hint 7).success_iff.2 ⟨rfl, -12, by decide, by decide, hvalue⟩
  refine ⟨Prod.ext hsuccess ((hint 7).stores hsuccess _ hvalue), ?_⟩
  refine Int.ofNat_inj.1 ((huint 7).unchanged (Bool.eq_false_iff.2 fun hsuccess => ?_))
  obtain ⟨-, value, hlo, -, hvalue'⟩ := (huint 7).success_iff.1 hsuccess
  rw [← hvalue.unique hvalue'] at hlo
  exact absurd hlo (by decide)

/-- `atoi` of a C library that decides about numbers that are no `int`. -/
def Library.toAtoi (lib : Library) : Atoi where
  read := atoi lib
  le_read s := by
    have := toInt32_bounds (lib.atoiOverflow (textValue s))
    rw [atoi_eq]
    split_ifs <;> omega
  read_le s := by
    have := toInt32_bounds (lib.atoiOverflow (textValue s))
    rw [atoi_eq]
    split_ifs <;> omega
  read_eq h hlo hhi := by
    rw [atoi_eq, h.textValue, if_pos ⟨hlo, by omega⟩]

/-- The result of `parse_int` alone. -/
theorem parseIntTo_toAtoi (lib : Library) (dest : ℤ) (s : List UInt8) :
    parseIntTo lib.toAtoi true dest s =
      match parseInt lib s with
      | none => (false, dest)
      | some parsed => (true, parsed) := by
  rw [parseIntTo, parseNumber, dynamicSprintf_decimalInt, parseInt]
  simp only [if_true, Library.toAtoi]
  split_ifs <;> rfl

/-- `parse_int` in terms of the canonical texts. -/
theorem parseInt_eq_some_iff (lib : Library) {s : List UInt8} {value : ℤ} :
    parseInt lib s = some value ↔
      -2 ^ 31 ≤ value ∧ value ≤ 2 ^ 31 - 1 ∧ CanonicalDecimal (cString s) value := by
  have hread : atoi lib (cString s) = lib.toAtoi.read (cString s) := rfl
  simp only [parseInt, hread]
  constructor
  · intro h
    split_ifs at h with htext
    obtain rfl := Option.some.inj h
    exact ⟨lib.toAtoi.le_read _, lib.toAtoi.read_le _, canonicalDecimal_iff.2 htext⟩
  · rintro ⟨hlo, hhi, hvalue⟩
    have htext := canonicalDecimal_iff.1 hvalue
    have hvalue' : lib.toAtoi.read (cString s) = value := by
      rw [htext]
      exact lib.toAtoi.read_eq (leadingNumber_decimalInt value) hlo hhi
    rw [hvalue', if_pos htext]

end XprcServer
