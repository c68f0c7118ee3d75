import Mathlib.Data.List.Induction
import Mathlib.Tactic.IntervalCases
import XprcServer.Utils.Numbers

/-!
# ISO dates

`parse_iso_date` cuts a copy of the text at the separators, skips a leading zero of the month and of
the day, so that `parse_int` takes them, and asks `is_valid_date` about the numbers.  The
allocations succeed.

`is_valid_date` takes every year that is divisible by 4 for a leap year.  Of the years that it
allows this is wrong for 1900 and 2100, which makes their 29th of February the only dates that are
accepted without being in the calendar.

* `parseIsoDate_text` : on a text of the format the outcome depends on `is_valid_date` only;
* `parseIsoDate_noText` : all other texts are invalid dates;
* `isValidDate_iff` : the dates that are accepted;
* `readsDate_iff` : so a text is read as the calendar says unless it is one of those two.
-/

namespace XprcServer

/-! ### The code -/

/-- `xprc_date_t` -/
structure XprcDate where
  year : ℤ
  month : ℤ
  day : ℤ
  deriving DecidableEq

/-- `invalid_date` -/
def invalidDate : XprcDate := ⟨-1, -1, -1⟩

/-- `MIN_YEAR` -/
def minYear : ℤ := 1900

/-- `MAX_YEAR` -/
def maxYear : ℤ := 2100

/-- `max_days` of `is_valid_date` -/
def maxDays (date : XprcDate) : ℤ :=
  if date.month = 2 then (if date.year.tmod 4 = 0 then 29 else 28)
  else if date.month = 4 ∨ date.month = 6 ∨ date.month = 9 ∨ date.month = 11 then 30
  else 31

/-- `is_valid_date` -/
def isValidDate (date : XprcDate) : Bool :=
  if date.year < minYear ∨ date.year > maxYear then false
  else if date.month < 1 ∨ date.month > 12 then false
  else if date.day < 1 ∨ date.day > maxDays date then false
  else true

/-- The pattern of a date: digits and the separators, and a `T` where the text goes on. -/
def validPattern (copy : List UInt8) : Bool :=
  let ch (i : ℕ) := copy.getD i 0
  (isDigit (ch 0) && isDigit (ch 1) && isDigit (ch 2) && isDigit (ch 3) && ch 4 == 45 &&
    isDigit (ch 5) && isDigit (ch 6) && ch 7 == 45 && isDigit (ch 8) && isDigit (ch 9)) &&
    (if 10 < strlen copy then ch 10 == 84 else true)

/-- The offset behind a leading zero -/
def skipZero (copy : List UInt8) (offset : ℕ) : ℕ :=
  if copy.getD offset 0 = 48 then offset + 1 else offset

/-- `parse_iso_date` -/
def parseIsoDate (lib : Library) (s : List UInt8) : XprcDate :=
  let copy := cString s ++ [0]
  if strlen copy < 10 then invalidDate
  else if !validPattern copy then invalidDate
  else
    let copy := ((copy.set 4 0).set 7 0).set 10 0
    match parseInt lib copy, parseInt lib (copy.drop (skipZero copy 5)),
      parseInt lib (copy.drop (skipZero copy 8)) with
    | some year, some month, some day =>
      let out : XprcDate := ⟨year, month, day⟩
      if isValidDate out then out else invalidDate
    | _, _, _ => invalidDate

/-! ### The calendar -/

/-- The Gregorian rule: a year divisible by 4, but a century only if divisible by 400. -/
def IsLeapYear (year : ℕ) : Prop := 4 ∣ year ∧ (100 ∣ year → 400 ∣ year)

instance (year : ℕ) : Decidable (IsLeapYear year) :=
  inferInstanceAs (Decidable (4 ∣ year ∧ (100 ∣ year → 400 ∣ year)))

/-- The number of days of a month -/
def daysOfMonth (year month : ℕ) : ℕ :=
  match month with
  | 2 => if IsLeapYear year then 29 else 28
  | 4 | 6 | 9 | 11 => 30
  | _ => 31

/-- A date of the calendar -/
structure CalendarDate (year month day : ℕ) : Prop where
  one_le_month : 1 ≤ month
  month_le : month ≤ 12
  one_le_day : 1 ≤ day
  day_le : day ≤ daysOfMonth year month

/-- The last `width` digits of a number, with leading zeros -/
def padded : ℕ → ℕ → List UInt8
  | 0, _ => []
  | width + 1, n => padded width (n / 10) ++ [UInt8.ofNat (48 + n % 10)]

/-- `YYYY-MM-DD` -/
def isoDate (year month day : ℕ) : List UInt8 :=
  padded 4 year ++ 45 :: (padded 2 month ++ 45 :: padded 2 day)

/-- What may stand behind a date: nothing, or a time behind a `T`. -/
def EndsDate (rest : List UInt8) : Prop := rest = [] ∨ rest.head? = some 84

/-- The text begins with that date, which is in the calendar and in the years that are supported. -/
structure NamesDate (s : List UInt8) (year month day : ℕ) : Prop where
  text : ∃ rest, cString s = isoDate year month day ++ rest ∧ EndsDate rest
  minYear_le : 1900 ≤ year
  le_maxYear : year ≤ 2100
  calendar : CalendarDate year month day

/-- The text is read as the calendar says. -/
structure ReadsDate (lib : Library) (s : List UInt8) : Prop where
  valid_iff : isValidDate (parseIsoDate lib s) = true ↔ ∃ year month day, NamesDate s year month day
  same : ∀ year month day, NamesDate s year month day → parseIsoDate lib s = ⟨year, month, day⟩
  invalid : (¬ ∃ year month day, NamesDate s year month day) → parseIsoDate lib s = invalidDate

variable {lib : Library} {s rest : List UInt8} {year month day n width : ℕ}

/-! ### Numbers with leading zeros -/

theorem length_padded (width n : ℕ) : (padded width n).length = width := by
  induction width generalizing n with
  | zero => rfl
  | succ width ih => rw [padded, List.length_append, ih, List.length_singleton]

theorem isDigit_padded {ch : UInt8} (h : ch ∈ padded width n) : isDigit ch = true := by
  induction width generalizing n with
  | zero => cases h
  | succ width ih =>
    rw [padded, List.mem_append, List.mem_singleton] at h
    rcases h with h | rfl
    · exact ih h
    · rw [isDigit_iff, digit_toNat]
      omega

/-- Without a leading zero these are the digits of the number. -/
theorem padded_eq_decimal (hlo : 10 ^ width ≤ n) (hhi : n < 10 ^ (width + 1)) :
    padded (width + 1) n = decimal n := by
  induction width generalizing n with
  | zero =>
    rw [decimal_eq, if_pos (by omega)]
    rfl
  | succ width ih =>
    rw [Nat.pow_succ] at hlo
    rw [Nat.pow_succ] at hhi
    have hpos : 0 < 10 ^ width := Nat.pow_pos (by omega)
    rw [padded, ih (by omega) (by omega), decimal_eq n, if_neg (by omega)]

/-- With a leading zero there is one of fewer digits. -/
theorem padded_head (h : n < 10 ^ width) : (padded (width + 1) n).head? = some 48 := by
  induction width generalizing n with
  | zero =>
    obtain rfl : n = 0 := by omega
    rfl
  | succ width ih =>
    rw [Nat.pow_succ] at h
    rw [padded, List.head?_append_of_ne_nil, ih (by omega)]
    exact List.ne_nil_of_length_eq_add_one (length_padded _ _)

theorem parseInt_decimal (lib : Library) (hn : n < 2 ^ 31) : parseInt lib (decimal n) = some n := by
  have hparse : parseInt lib (decimalInt (n : ℤ)) = some (n : ℤ) :=
    parseInt_decimalInt lib (by omega) (by omega)
  rwa [decimalInt, if_neg (by omega), Int.natAbs_natCast, List.nil_append] at hparse

/-- A text that is cut by a NUL. -/
theorem parseInt_cut (lib : Library) {part : List UInt8} (h : 0 ∉ part) (behind : List UInt8) :
    parseInt lib (part ++ 0 :: behind) = parseInt lib part := by
  have hcut : cString (part ++ 0 :: behind) = cString part := by
    rw [cString, List.takeWhile_append_of_pos (forall_ne_of_not_mem h), cString,
      List.takeWhile_cons_of_neg (by simp), List.append_nil]
    exact (cString_eq_self h).symm
  simp only [parseInt, hcut]

theorem zero_not_mem_padded : 0 ∉ padded width n := fun h => by
  have := (isDigit_iff 0).1 (isDigit_padded h)
  simp at this

theorem parseInt_year (lib : Library) (hyear : year < 10 ^ 4) (behind : List UInt8) :
    parseInt lib (padded 4 year ++ 0 :: behind) = if 1000 ≤ year then
    some (year : ℤ) else none := by
  rw [parseInt_cut lib zero_not_mem_padded]
  split_ifs with h
  · have htext : padded 4 year = decimal year := padded_eq_decimal h hyear
    rw [htext]
    exact parseInt_decimal lib (by omega)
  · have hhead : (padded 4 year).head? = some 48 := padded_head (by omega)
    refine Option.eq_none_iff_forall_ne_some.2 fun value hvalue => ?_
    obtain ⟨-, -, hcanonical⟩ := (parseInt_eq_some_iff lib).1 hvalue
    rw [cString_eq_self zero_not_mem_padded] at hcanonical
    generalize hs : padded 4 year = digits at hcanonical hhead
    have hlength : digits.length = 4 := hs ▸ length_padded 4 year
    cases hcanonical with
    | nonnegative canonical => simp [canonical.leadingZero hhead] at hlength
    | negative => simp at hhead

theorem parseInt_skipZero (lib : Library) (hn : n < 100) (before behind : List UInt8) :
    parseInt lib ((before ++ (padded 2 n ++ 0 :: behind)).drop
      (skipZero (before ++ (padded 2 n ++ 0 :: behind)) before.length)) = some (n : ℤ) := by
  by_cases h : n < 10
  · have htext : padded 2 n = 48 :: decimal n := by
      have hlead : n / 10 = 0 := by omega
      rw [padded, hlead, decimal_eq, if_pos h]
      rfl
    have hskip : skipZero (before ++ (padded 2 n ++ 0 :: behind)) before.length =
        before.length + 1 := by
      simp [skipZero, htext]
    rw [hskip, htext, ← List.drop_drop, List.drop_left]
    have hnul : 0 ∉ decimal n := fun h0 =>
      zero_not_mem_padded (show 0 ∈ padded 2 n by rw [htext]; exact List.mem_cons_of_mem _ h0)
    rw [List.cons_append, List.drop_one, List.tail_cons, parseInt_cut lib hnul]
    exact parseInt_decimal lib (by omega)
  · have htext : padded 2 n = decimal n := padded_eq_decimal (by omega) hn
    have hskip : skipZero (before ++ (padded 2 n ++ 0 :: behind)) before.length =
        before.length := by
      have hhead := decimal_head (n := n) (by omega)
      rw [← htext] at hhead
      obtain ⟨ch, digits, hdigits⟩ := List.exists_cons_of_ne_nil (htext ▸ decimal_ne_nil n)
      rw [hdigits] at hhead
      simp only [List.head?_cons, ne_eq, Option.some.injEq] at hhead
      simp [skipZero, hdigits, hhead]
    rw [hskip, List.drop_left, parseInt_cut lib zero_not_mem_padded, htext]
    exact parseInt_decimal lib (by omega)

/-! ### Texts of the format -/

theorem set_separator (before behind : List UInt8) (ch : UInt8) :
    (before ++ ch :: behind).set before.length 0 = before ++ 0 :: behind := by
  simp

/-- The copy is cut at the separators and behind the date. -/
theorem set_isoDate (year month day : ℕ) (rest : List UInt8) : ∃ behind,
    (((isoDate year month day ++ (rest ++ [0])).set 4 0).set 7 0).set 10 0 =
      padded 4 year ++ 0 :: (padded 2 month ++ 0 :: (padded 2 day ++ 0 :: behind)) := by
  obtain ⟨ch, behind, hrest⟩ : ∃ ch behind, rest ++ [0] = ch :: behind :=
    List.exists_cons_of_ne_nil (by simp)
  refine ⟨behind, ?_⟩
  have hyear := set_separator (padded 4 year)
    (padded 2 month ++ 45 :: (padded 2 day ++ ch :: behind)) 45
  have hmonth := set_separator (padded 4 year ++ 0 :: padded 2 month)
    (padded 2 day ++ ch :: behind) 45
  have hday := set_separator (padded 4 year ++ 0 :: (padded 2 month ++ 0 :: padded 2 day)) behind ch
  simp only [List.length_append, List.length_cons, length_padded, List.append_assoc,
    List.cons_append] at hyear hmonth hday
  rw [hrest, isoDate]
  simp only [List.append_assoc, List.cons_append]
  rw [hyear, hmonth, hday]

theorem strlen_copy (s : List UInt8) : strlen (cString s ++ [0]) = (cString s).length := by
  rw [strlen, cString, List.takeWhile_append_of_pos (forall_ne_of_not_mem (zero_not_mem_cString s)),
    List.takeWhile_cons_of_neg (by simp), List.append_nil]

/-- Any digits are those of a number with leading zeros. -/
theorem eq_padded {digits : List UInt8} (hlength : digits.length = width)
    (h : ∀ ch ∈ digits, isDigit ch = true) : ∃ n < 10 ^ width, padded width n = digits := by
  induction digits using List.reverseRecOn generalizing width with
  | nil =>
    subst hlength
    exact ⟨0, by simp, rfl⟩
  | append_singleton digits ch ih =>
    obtain ⟨n, hn, hdigits⟩ := ih rfl fun c hc => h c (List.mem_append_left _ hc)
    obtain ⟨hle, hge⟩ := (isDigit_iff ch).1 (h ch (by simp))
    rw [List.length_append, List.length_singleton] at hlength
    subst hlength
    refine ⟨10 * n + (ch.toNat - 48), ?_, ?_⟩
    · rw [Nat.pow_succ]
      omega
    · rw [padded, show (10 * n + (ch.toNat - 48)) / 10 = n by omega, hdigits,
        show 48 + (10 * n + (ch.toNat - 48)) % 10 = ch.toNat by omega, UInt8.ofNat_toNat]

/-- The text begins with the digits and separators of a date, of the calendar or not. -/
def HasFormat (s : List UInt8) (year month day : ℕ) : Prop :=
  (∃ rest, cString s = isoDate year month day ++ rest ∧ EndsDate rest) ∧
    year < 10 ^ 4 ∧ month < 10 ^ 2 ∧ day < 10 ^ 2

theorem exists_cons_of_lt {text : List UInt8} (h : n < text.length) :
    ∃ ch behind, text = ch :: behind ∧ n ≤ behind.length := by
  cases text with
  | nil => cases h
  | cons ch behind => exact ⟨ch, behind, rfl, Nat.le_of_lt_succ h⟩

/-- **The pattern is that of a date.** -/
theorem validPattern_iff (hlength : 10 ≤ (cString s).length) :
    validPattern (cString s ++ [0]) = true ↔ ∃ year month day, HasFormat s year month day := by
  have hstrlen := strlen_copy s
  simp only [HasFormat]
  generalize cString s = text at *
  obtain ⟨c0, text, rfl, h0⟩ := exists_cons_of_lt hlength
  obtain ⟨c1, text, rfl, h1⟩ := exists_cons_of_lt h0
  obtain ⟨c2, text, rfl, h2⟩ := exists_cons_of_lt h1
  obtain ⟨c3, text, rfl, h3⟩ := exists_cons_of_lt h2
  obtain ⟨c4, text, rfl, h4⟩ := exists_cons_of_lt h3
  obtain ⟨c5, text, rfl, h5⟩ := exists_cons_of_lt h4
  obtain ⟨c6, text, rfl, h6⟩ := exists_cons_of_lt h5
  obtain ⟨c7, text, rfl, h7⟩ := exists_cons_of_lt h6
  obtain ⟨c8, text, rfl, h8⟩ := exists_cons_of_lt h7
  obtain ⟨c9, rest, rfl, -⟩ := exists_cons_of_lt h8
  have hpattern :
      validPattern ((c0 :: c1 :: c2 :: c3 :: c4 :: c5 :: c6 :: c7 :: c8 :: c9 :: rest) ++
      [0]) = true ↔ (∀ ch ∈ [c0, c1, c2, c3], isDigit ch = true) ∧ c4 = 45 ∧
        (∀ ch ∈ [c5, c6], isDigit ch = true) ∧ c7 = 45 ∧ (∀ ch ∈ [c8, c9], isDigit ch = true) ∧
        EndsDate rest := by
    rw [validPattern, hstrlen]
    cases rest with
    | nil => simp [EndsDate, and_assoc]
    | cons ch rest => simp [EndsDate, and_assoc]
  rw [hpattern]
  constructor
  · rintro ⟨hyear, rfl, hmonth, rfl, hday, hends⟩
    obtain ⟨year, hy, hyear⟩ := eq_padded rfl hyear
    obtain ⟨month, hm, hmonth⟩ := eq_padded rfl hmonth
    obtain ⟨day, hd, hday⟩ := eq_padded rfl hday
    refine ⟨year, month, day, ⟨rest, ?_, hends⟩, hy, hm, hd⟩
    exact (congrArg (· ++ rest) (congrArg₂ (fun y md => y ++ 45 :: md) hyear
      (congrArg₂ (fun m d => m ++ 45 :: d) hmonth hday))).symm
  · rintro ⟨year, month, day, ⟨rest', htext, hends⟩, -, -, -⟩
    rw [isoDate] at htext
    simp only [List.append_assoc, List.cons_append] at htext
    obtain ⟨hyear, htext⟩ := List.append_inj
      (show [c0, c1, c2, c3] ++ _ = padded 4 year ++ _ from htext) (length_padded 4 year).symm
    obtain ⟨hc4, htext⟩ := List.cons.inj htext
    obtain ⟨hmonth, htext⟩ := List.append_inj
      (show [c5, c6] ++ _ = padded 2 month ++ _ from htext) (length_padded 2 month).symm
    obtain ⟨hc7, htext⟩ := List.cons.inj htext
    obtain ⟨hday, rfl⟩ := List.append_inj
      (show [c8, c9] ++ rest = padded 2 day ++ rest' from htext) (length_padded 2 day).symm
    refine ⟨?_, hc4, ?_, hc7, ?_, hends⟩
    · rw [hyear]
      exact fun ch => isDigit_padded
    · rw [hmonth]
      exact fun ch => isDigit_padded
    · rw [hday]
      exact fun ch => isDigit_padded

theorem length_isoDate (year month day : ℕ) : (isoDate year month day).length = 10 := by
  simp [isoDate, length_padded]

/-- **On a text of the format the outcome depends on `is_valid_date` only.**  A year with a leading
zero is no number, but none of those years is supported. -/
theorem parseIsoDate_text (lib : Library) (h : HasFormat s year month day) :
    parseIsoDate lib s =
      if isValidDate ⟨year, month, day⟩ then ⟨year, month, day⟩ else invalidDate := by
  obtain ⟨⟨rest, htext, hends⟩, hyear, hmonth, hday⟩ := h
  have hlength : 10 ≤ (cString s).length := by
    rw [htext, List.length_append, length_isoDate]
    omega
  have hpattern : validPattern (cString s ++ [0]) = true :=
    (validPattern_iff hlength).2 ⟨year, month, day, ⟨rest, htext, hends⟩, hyear, hmonth, hday⟩
  obtain ⟨behind, hcopy⟩ := set_isoDate year month day rest
  have hparseMonth := parseInt_skipZero lib hmonth (padded 4 year ++ [0])
    (padded 2 day ++ 0 :: behind)
  have hparseDay := parseInt_skipZero lib hday
    (padded 4 year ++ 0 :: (padded 2 month ++ [0])) behind
  simp only [List.append_assoc, List.cons_append, List.nil_append, List.length_append,
    List.length_cons, List.length_nil, length_padded] at hparseMonth hparseDay
  have hparseYear := parseInt_year lib hyear
    (padded 2 month ++ 0 :: (padded 2 day ++ 0 :: behind))
  have hnot : ¬ strlen (cString s ++ [0]) < 10 := by
    rw [strlen_copy]
    omega
  rw [parseIsoDate]
  simp only [if_neg hnot, hpattern, Bool.not_true, Bool.false_eq_true, if_false]
  rw [htext, List.append_assoc, hcopy, hparseYear, hparseMonth, hparseDay]
  by_cases h1000 : 1000 ≤ year
  · rw [if_pos h1000]
  · have hinvalid : isValidDate ⟨year, month, day⟩ = false := by
      rw [isValidDate, if_pos]
      left
      simp only [minYear]
      omega
    rw [if_neg h1000, hinvalid]
    rfl

/-- **All other texts are invalid dates.** -/
theorem parseIsoDate_noText (lib : Library) (h : ¬ ∃ year month day, HasFormat s year month day) :
    parseIsoDate lib s = invalidDate := by
  rw [parseIsoDate]
  by_cases hlength : strlen (cString s ++ [0]) < 10
  · rw [if_pos hlength]
  · rw [if_neg hlength]
    rw [strlen_copy] at hlength
    have hpattern : validPattern (cString s ++ [0]) = false :=
      Bool.eq_false_iff.2 (mt (validPattern_iff (not_lt.1 hlength)).1 h)
    rw [hpattern]
    rfl

/-! ### The dates that are accepted -/

/-- The 29th of February of a century that is no leap year. -/
def FalseLeapDay (year month day : ℕ) : Prop :=
  (year = 1900 ∨ year = 2100) ∧ month = 2 ∧ day = 29

theorem maxDays_february (day : ℤ) :
    maxDays ⟨year, 2, day⟩ = if 4 ∣ year then 29 else 28 := by
  have hmod : (year : ℤ).tmod 4 = 0 ↔ 4 ∣ year := by
    rw [Int.tmod_eq_emod_of_nonneg (by omega)]
    omega
  simp only [maxDays, if_true, hmod]

/-- In the years that are supported only two Februaries are too long. -/
theorem maxDays_eq (hmin : 1900 ≤ year) (hmax : year ≤ 2100) (hmonth : 1 ≤ month)
    (hmonth' : month ≤ 12) (day : ℤ) :
    maxDays ⟨year, month, day⟩ =
      daysOfMonth year month + if month = 2 ∧ (year = 1900 ∨ year = 2100) then 1 else 0 := by
  by_cases hfebruary : month = 2
  · subst hfebruary
    have hdays : daysOfMonth year 2 = if IsLeapYear year then 29 else 28 := rfl
    rw [show ((2 : ℕ) : ℤ) = 2 from rfl, maxDays_february, hdays]
    by_cases hleap : IsLeapYear year
    · have hcentury : ¬ (2 = 2 ∧ (year = 1900 ∨ year = 2100)) := by
        rintro ⟨-, rfl | rfl⟩ <;> exact absurd hleap (by decide)
      rw [if_pos hleap, if_pos hleap.1, if_neg hcentury]
      rfl
    · have hcentury : 4 ∣ year ↔ year = 1900 ∨ year = 2100 := by
        simp only [IsLeapYear] at hleap
        omega
      rw [if_neg hleap]
      simp only [true_and, hcentury]
      split_ifs <;> rfl
  · have hne : (month : ℤ) ≠ 2 := by omega
    rw [if_neg fun h => hfebruary h.1]
    interval_cases month <;> first | rfl | exact absurd rfl hfebruary

/-- **Besides the dates of the calendar the two false leap days are accepted.** -/
theorem isValidDate_iff :
    isValidDate ⟨year, month, day⟩ = true ↔
      (1900 ≤ year ∧ year ≤ 2100 ∧ CalendarDate year month day) ∨ FalseLeapDay year month day := by
  have hdate : isValidDate ⟨year, month, day⟩ = true ↔ (1900 ≤ year ∧ year ≤ 2100) ∧
      (1 ≤ month ∧ month ≤ 12) ∧ 1 ≤ day ∧ (day : ℤ) ≤ maxDays ⟨year, month, day⟩ := by
    simp only [isValidDate, minYear, maxYear]
    split_ifs <;> simp <;> omega
  rw [hdate]
  constructor
  · rintro ⟨⟨hmin, hmax⟩, ⟨hmonth, hmonth'⟩, hday, hmaxDays⟩
    rw [maxDays_eq hmin hmax hmonth hmonth'] at hmaxDays
    by_cases hle : day ≤ daysOfMonth year month
    · exact .inl ⟨hmin, hmax, hmonth, hmonth', hday, hle⟩
    · refine .inr ?_
      split_ifs at hmaxDays with hlong
      · obtain ⟨rfl, hyear⟩ := hlong
        have hdays : daysOfMonth year 2 = 28 := by rcases hyear with rfl | rfl <;> decide
        exact ⟨hyear, rfl, by omega⟩
      · omega
  · rintro (⟨hmin, hmax, hmonth, hmonth', hday, hle⟩ | ⟨hyear, rfl, rfl⟩)
    · refine ⟨⟨hmin, hmax⟩, ⟨hmonth, hmonth'⟩, hday, ?_⟩
      rw [maxDays_eq hmin hmax hmonth hmonth']
      split_ifs <;> omega
    · rcases hyear with rfl | rfl <;> decide

/-! ### Reading dates -/

theorem NamesDate.hasFormat (h : NamesDate s year month day) : HasFormat s year month day := by
  have hmax := h.le_maxYear
  have hmonth := h.calendar.month_le
  have hday := h.calendar.day_le
  have hdays : daysOfMonth year month ≤ 31 := by
    unfold daysOfMonth
    split
    · split_ifs <;> omega
    all_goals omega
  exact ⟨h.text, by omega, by omega, by omega⟩

theorem NamesDate.parse (lib : Library) (h : NamesDate s year month day) :
    isValidDate ⟨year, month, day⟩ = true ∧ parseIsoDate lib s = ⟨year, month, day⟩ := by
  have hvalid := isValidDate_iff.2 (.inl ⟨h.minYear_le, h.le_maxYear, h.calendar⟩)
  rw [parseIsoDate_text lib h.hasFormat, if_pos hvalid]
  exact ⟨hvalid, rfl⟩

theorem HasFormat.namesDate (h : HasFormat s year month day)
    (hdate : 1900 ≤ year ∧ year ≤ 2100 ∧ CalendarDate year month day) :
    NamesDate s year month day := ⟨h.1, hdate.1, hdate.2.1, hdate.2.2⟩

theorem FalseLeapDay.not_calendarDate (h : FalseLeapDay year month day) :
    ¬ CalendarDate year month day := by
  obtain ⟨hyear, rfl, rfl⟩ := h
  rintro ⟨-, -, -, hday⟩
  have hdays : daysOfMonth year 2 = 28 := by rcases hyear with rfl | rfl <;> decide
  omega

/-- The text begins with a false leap day: `1900-02-29` or `2100-02-29`, with nothing or a `T`
behind it. -/
def BeginsWithFalseLeapDay (s : List UInt8) : Prop :=
  ∃ rest, (cString s = bytes "1900-02-29" ++ rest ∨ cString s = bytes "2100-02-29" ++ rest) ∧
    EndsDate rest

theorem beginsWithFalseLeapDay_iff :
    BeginsWithFalseLeapDay s ↔
      ∃ year month day, HasFormat s year month day ∧ FalseLeapDay year month day := by
  constructor
  · rintro ⟨rest, h | h, hends⟩
    · exact ⟨1900, 2, 29, ⟨⟨rest, h, hends⟩, by decide⟩, by simp [FalseLeapDay]⟩
    · exact ⟨2100, 2, 29, ⟨⟨rest, h, hends⟩, by decide⟩, by simp [FalseLeapDay]⟩
  · rintro ⟨year, month, day, ⟨⟨rest, h, hends⟩, -⟩, hyear, rfl, rfl⟩
    rcases hyear with rfl | rfl
    · exact ⟨rest, .inl h, hends⟩
    · exact ⟨rest, .inr h, hends⟩

/-- A text that begins with a false leap day is read as that day, which the calendar does not
have. -/
theorem ReadsDate.not_falseLeapDay (hreads : ReadsDate lib s)
    (hformat : HasFormat s year month day) :
    ¬ FalseLeapDay year month day := by
  intro hfalse
  have hvalid := isValidDate_iff.2 (.inr hfalse)
  have hparse := parseIsoDate_text lib hformat
  rw [if_pos hvalid] at hparse
  obtain ⟨year', month', day', hnames⟩ := hreads.valid_iff.1 (by rw [hparse, hvalid])
  -- the date that the text names would be the one that was returned
  have hsame := (hnames.parse lib).2
  rw [hparse] at hsame
  obtain ⟨hy, hm, hd⟩ := XprcDate.mk.inj hsame
  obtain rfl : year = year' := by omega
  obtain rfl : month = month' := by omega
  obtain rfl : day = day' := by omega
  exact hfalse.not_calendarDate hnames.calendar

/-- **A text is read as the calendar says unless it begins with a false leap day.** -/
theorem readsDate_iff (lib : Library) (s : List UInt8) :
    ReadsDate lib s ↔ ¬ BeginsWithFalseLeapDay s := by
  rw [beginsWithFalseLeapDay_iff]
  constructor
  · rintro hreads ⟨year, month, day, hformat, hfalse⟩
    exact hreads.not_falseLeapDay hformat hfalse
  · intro hnone
    have hinvalid : (¬ ∃ year month day, NamesDate s year month day) →
        parseIsoDate lib s = invalidDate := by
      intro hno
      by_cases htext : ∃ year month day, HasFormat s year month day
      · obtain ⟨year, month, day, hformat⟩ := htext
        rw [parseIsoDate_text lib hformat, if_neg]
        intro hvalid
        rcases isValidDate_iff.1 hvalid with hdate | hfalse
        · exact hno ⟨year, month, day, hformat.namesDate hdate⟩
        · exact hnone ⟨year, month, day, hformat, hfalse⟩
      · exact parseIsoDate_noText lib htext
    refine ⟨⟨fun hvalid => ?_, ?_⟩, fun _ _ _ h => (h.parse lib).2, hinvalid⟩
    · by_contra hno
      rw [hinvalid hno] at hvalid
      exact absurd hvalid (by decide)
    · rintro ⟨year, month, day, h⟩
      rw [(h.parse lib).2]
      exact (h.parse lib).1

/-- There will be no 29th of February in 2100. -/
theorem not_readsDate_2100 :
    ¬ ReadsDate ⟨fun value => value, fun _ => none, fun _ => 0, fun _ _ => true⟩
      (bytes "2100-02-29") := fun h =>
  have hformat : HasFormat (bytes "2100-02-29") 2100 2 29 := ⟨⟨[], rfl, .inl rfl⟩, by decide⟩
  h.not_falseLeapDay hformat ⟨.inr rfl, rfl, rfl⟩

end XprcServer
