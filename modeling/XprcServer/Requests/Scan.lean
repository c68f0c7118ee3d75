import Mathlib.Data.List.TakeWhile
import XprcServer.Requests

/-!
# The option loop over any line

The options of a request line are read by one loop over offsets that keeps in its variables where a
key and a value started.  Here it is taken piece by piece: a piece is the text up to the next `;`,
space or end of the line, and `splitOption` says which option it is, if any.

* `optionLoop_piece` : the loop reads a piece and stands in front of the character that ends it;
* `endOption_piece` : what is done there depends on the piece and on the options before it only
  (`readOption`), though the names are compared with the unterminated rest of the line;
* `optionLoop_last`, `optionLoop_next` : how the loop goes on behind a piece.
-/

namespace XprcServer

/-! ### Texts in memory -/

/-- The memory behind `line` holds a text from `start` on. -/
def Holds (line : ℕ → UInt8) (start : ℕ) (text : List UInt8) : Prop :=
  ∀ i (h : i < text.length), line (start + i) = text[i]

section

variable {line : ℕ → UInt8} {start : ℕ} {c : UInt8} {text text' : List UInt8}

theorem Holds.nil : Holds line start [] := fun _ h => absurd h (Nat.not_lt_zero _)

theorem Holds.head (h : Holds line start (c :: text)) : line start = c := h 0 (by simp)

theorem Holds.tail (h : Holds line start (c :: text)) : Holds line (start + 1) text := by
  intro i hi
  have := h (i + 1) (by simpa using hi)
  rwa [List.getElem_cons_succ, show start + (i + 1) = start + 1 + i by omega] at this

theorem Holds.left (h : Holds line start (text ++ text')) : Holds line start text := by
  intro i hi
  rw [h i (by simp; omega), List.getElem_append_left hi]

theorem Holds.right (h : Holds line start (text ++ text')) :
    Holds line (start + text.length) text' := by
  intro i hi
  rw [Nat.add_assoc, h (text.length + i) (by simp; omega), List.getElem_append_right (by omega)]
  simp

theorem Holds.cons (hc : line start = c) (h : Holds line (start + 1) text) :
    Holds line start (c :: text) := by
  intro i hi
  cases i with
  | zero => exact hc
  | succ i =>
    rw [show start + (i + 1) = start + 1 + i by omega]
    exact h i (by simpa using hi)

theorem Holds.append (h : Holds line start text) (h' : Holds line (start + text.length) text') :
    Holds line start (text ++ text') := by
  induction text generalizing start with
  | nil => simpa using h'
  | cons c text ih =>
    refine .cons h.head (ih h.tail ?_)
    rwa [List.length_cons, show start + (text.length + 1) = start + 1 + text.length by omega] at h'

/-- Copying the text gives the text. -/
theorem Holds.copy (h : Holds line start text) :
    copyPartialString (lineFrom line start) text.length = text := by
  refine List.ext_getElem (by simp [copyPartialString]) fun i h1 h2 => ?_
  simp only [copyPartialString, List.getElem_map, List.getElem_range]
  exact h i h2

/-- A pointer to memory compares equal to a string iff the memory holds the string, up to its first
NUL, and a NUL behind it. -/
theorem strEq_iff {s : List UInt8} :
    strEq (lineFrom line start) s = true ↔
      Holds line start (cString s) ∧ line (start + (cString s).length) = 0 := by
  induction s generalizing start with
  | nil => simp [strEq, cString, lineFrom, Holds.nil]
  | cons c cs ih =>
    have hshift : (fun i => lineFrom line start (i + 1)) = lineFrom line (start + 1) := by
      funext i
      rw [lineFrom, lineFrom, show start + (i + 1) = start + 1 + i by omega]
    rw [strEq, hshift]
    simp only [Bool.and_eq_true, Bool.or_eq_true, beq_iff_eq]
    by_cases hc : c = 0
    · simp [hc, cString, lineFrom, Holds.nil]
    · have hcs : cString (c :: cs) = c :: cString cs := by simp [cString, hc]
      rw [ih, hcs, List.length_cons, show start + ((cString cs).length + 1) =
        start + 1 + (cString cs).length by omega]
      simp only [hc, false_or]
      constructor
      · rintro ⟨hhead, hrest, hend⟩
        exact ⟨.cons hhead hrest, hend⟩
      · rintro ⟨hall, hend⟩
        exact ⟨hall.head, hall.tail, hend⟩

end

/-! ### Pieces of the line -/

/-- What a client writes for an option, without the `;` in front. -/
def CommandOption.text (option : CommandOption) : List UInt8 :=
  option.name ++ optionEndOfKey :: option.value

/-- The option a piece of the line is: its key ends at the first `=` behind its first character. -/
def splitOption : List UInt8 → Option CommandOption
  | [] => none
  | c :: text =>
    if optionEndOfKey ∈ text then
      some ⟨c :: text.takeWhile (· ≠ optionEndOfKey),
        (text.dropWhile (· ≠ optionEndOfKey)).tail⟩
    else none

theorem splitOption_eq_some_iff {text : List UInt8} {option : CommandOption} :
    splitOption text = some option ↔
      option.text = text ∧ option.name ≠ [] ∧ optionEndOfKey ∉ option.name.tail := by
  constructor
  · intro h
    match text with
    | [] => cases h
    | c :: text =>
      rw [splitOption] at h
      split at h
      · next hmem =>
        injection h with h
        obtain ⟨key, value, rfl, hkey⟩ := List.eq_append_cons_of_mem hmem
        have hall := forall_ne_of_not_mem hkey
        rw [List.takeWhile_append_of_pos hall, List.dropWhile_append_of_pos hall] at h
        subst h
        simp [CommandOption.text, hkey]
      · cases h
  · rintro ⟨rfl, hne, hkey⟩
    obtain ⟨name, value⟩ := option
    obtain ⟨c, key, rfl⟩ := List.exists_cons_of_ne_nil hne
    rw [List.tail_cons] at hkey
    have hall := forall_ne_of_not_mem hkey
    simp only [CommandOption.text, List.cons_append, splitOption]
    rw [if_pos (by simp), List.takeWhile_append_of_pos hall, List.dropWhile_append_of_pos hall]
    simp

/-- `add_option` finds the name among the recorded ones: the names before the last one are compared,
with a rest of the line that has its `=` where the name should end, so that only a NUL inside of the
name ends the comparison with success. -/
def Repeats (recorded : List CommandOption) (option : CommandOption) : Prop :=
  0 ∈ option.name ∧ ∃ other ∈ recorded.dropLast, cString other.name = cString option.name

instance (recorded : List CommandOption) (option : CommandOption) :
    Decidable (Repeats recorded option) :=
  inferInstanceAs (Decidable (_ ∧ _))

/-- What becomes of a piece of the line. -/
def readOption (alloc : ℕ → Bool) (recorded : List CommandOption) (text : List UInt8) :
    ParseM (List CommandOption) :=
  match splitOption text with
  | none => throw .requestInvalidSyntax
  | some option =>
    if Repeats recorded option then throw .requestDuplicateOption
    else do
      allocate alloc
      allocate alloc
      allocate alloc
      return recorded ++ [option]

/-- The variables of the loop at the end of a piece.  The start of an empty key or value is not
noted yet. -/
def OptionScan.behind (offset : ℕ) (recorded : List CommandOption) (text : List UInt8) :
    OptionScan :=
  match splitOption text with
  | none => ⟨offset + text.length, if text = [] then 0 else offset, 0, 0, recorded⟩
  | some option =>
    ⟨offset + text.length, offset, option.name.length,
      if option.value = [] then 0 else offset + option.name.length + 1, recorded⟩

section

variable {alloc : ℕ → Bool} {line : ℕ → UInt8} {length : ℕ}

/-- The name in the line, with its `=` and whatever is behind it, compared with a recorded one. -/
theorem strEq_name {key rest name : List UInt8} {start : ℕ}
    (htext : Holds line start (key ++ optionEndOfKey :: rest)) (hne : key ≠ [])
    (hname : optionEndOfKey ∉ name.tail) :
    strEq (lineFrom line start) name = true ↔ 0 ∈ key ∧ cString name = cString key := by
  rw [strEq_iff]
  have hend : line (start + key.length) = optionEndOfKey := htext.right.head
  constructor
  · rintro ⟨hsame, hzero⟩
    have hshort : (cString name).length < key.length := by
      by_contra hlong
      rcases Nat.eq_or_lt_of_le (Nat.le_of_not_lt hlong) with heq | hlt
      · rw [← heq, hend] at hzero
        exact absurd hzero (by decide)
      · -- the recorded name would have a `=` behind its first character
        have hat := hsame _ hlt
        rw [hend] at hat
        have hprefix : cString name <+: name := List.takeWhile_prefix _
        have hpos : 0 < key.length := List.length_pos_iff.2 hne
        refine hname (List.mem_iff_getElem.2 ⟨key.length - 1, ?_, ?_⟩)
        · have := hprefix.length_le
          rw [List.length_tail]
          omega
        · rw [List.getElem_tail, hat, hprefix.getElem]
          simp only [Nat.sub_add_cancel hpos]
    have hkey : key = cString name ++ 0 :: key.drop ((cString name).length + 1) := by
      have hsplit := List.take_append_drop (cString name).length key
      have hdrop := List.drop_eq_getElem_cons hshort
      have hat : key[(cString name).length] = 0 := by
        rw [← hzero, htext.left _ hshort]
      have htake : key.take (cString name).length = cString name := by
        refine List.ext_getElem (by simp; omega) fun i h1 h2 => ?_
        rw [List.getElem_take, ← htext.left i (by omega), hsame i h2]
      rw [hat] at hdrop
      rw [htake, hdrop] at hsplit
      exact hsplit.symm
    have hfree : ∀ c ∈ cString name, decide (c ≠ 0) = true := by
      intro c hc
      exact List.mem_takeWhile_imp (p := fun c => decide (c ≠ 0)) hc
    refine ⟨by rw [hkey]; simp, ?_⟩
    rw [hkey]
    generalize cString name = text at hfree
    rw [cString, List.takeWhile_append_of_pos hfree]
    simp
  · rintro ⟨hmem, heq⟩
    obtain ⟨before, after, rfl, hbefore⟩ := List.eq_append_cons_of_mem hmem
    have hall := forall_ne_of_not_mem hbefore
    have hkey : cString (before ++ 0 :: after) = before := by
      rw [cString, List.takeWhile_append_of_pos hall]
      simp
    rw [heq, hkey]
    exact ⟨htext.left.left, htext.left.right.head⟩

/-- One pass of the option loop over a character that ends nothing but maybe the key. -/
theorem optionLoop_pass {fuel : ℕ} {s : OptionScan} (hlt : s.offset < length)
    (h1 : line s.offset ≠ optionSeparator) (h2 : line s.offset ≠ requestPartSeparator) :
    optionLoop alloc line length (fuel + 1) s =
      let s' := if s.keyLength = 0 ∧ line s.offset = optionEndOfKey then
        { s.noteStart with keyLength := s.noteStart.offset - s.noteStart.keyStart } else s.noteStart
      optionLoop alloc line length fuel { s' with offset := s'.offset + 1 } := by
  have hne : s.offset ≠ length := by omega
  rw [optionLoop, if_neg (by omega)]
  by_cases hkey : s.keyLength = 0 ∧ line s.offset = optionEndOfKey
  · simp [hne, hkey.1, hkey.2, optionEndOfKey, optionSeparator, requestPartSeparator]
  · simp [h1, h2, hne, hkey]

/-- The pass over a `;` ends an option. -/
theorem optionLoop_separator {fuel : ℕ} {s : OptionScan} (hlt : s.offset < length)
    (h : line s.offset = optionSeparator) :
    optionLoop alloc line length (fuel + 1) s =
      endOption alloc line s.noteStart >>= fun s =>
        optionLoop alloc line length fuel { s with offset := s.offset + 1 } := by
  have hne : s.offset ≠ length := by omega
  rw [optionLoop, if_neg (by omega)]
  simp [h, hne, optionEndOfKey, optionSeparator, requestPartSeparator]

/-- The pass over a space ends an option and the loop. -/
theorem optionLoop_space {fuel : ℕ} {s : OptionScan} (hlt : s.offset < length)
    (h : line s.offset = requestPartSeparator) :
    optionLoop alloc line length (fuel + 1) s =
      endOption alloc line s.noteStart >>= fun s => pure { s with offset := s.offset + 1 } := by
  have hne : s.offset ≠ length := by omega
  rw [optionLoop, if_neg (by omega)]
  simp [h, hne, optionEndOfKey, requestPartSeparator]

/-- The pass over the end of the line ends an option and the loop, and leaves the offset there.
Whatever memory holds there, a key that has not ended is an error before it can end there. -/
theorem optionLoop_endOfLine {fuel : ℕ} {s : OptionScan} (heq : s.offset = length) :
    optionLoop alloc line length (fuel + 1) s = endOption alloc line s.noteStart := by
  rw [optionLoop, if_neg (by omega)]
  by_cases hkey : s.keyLength = 0
  · have hnote : s.noteStart.keyLength = 0 := by
      unfold OptionScan.noteStart
      split_ifs <;> exact hkey
    simp only [heq, beq_self_eq_true, Bool.true_or, if_true, endOption, hnote, true_or, or_true]
    rfl
  · simp [heq, hkey]

theorem optionLoop_key {key : List UInt8} {fuel offset keyStart : ℕ} {options : List CommandOption}
    (hkey : Holds line offset key) (hle : offset + key.length ≤ length) (hstart : keyStart ≠ 0)
    (hend : optionEndOfKey ∉ key)
    (hfree : ∀ c ∈ key, c ≠ optionSeparator ∧ c ≠ requestPartSeparator) :
    optionLoop alloc line length (key.length + fuel) ⟨offset, keyStart, 0, 0, options⟩ =
      optionLoop alloc line length fuel ⟨offset + key.length, keyStart, 0, 0, options⟩ := by
  induction key generalizing offset with
  | nil => simp
  | cons c key ih =>
    have hc := hfree c List.mem_cons_self
    simp only [List.mem_cons, not_or] at hend
    have hpass : (c :: key).length + fuel = key.length + fuel + 1 := by simp; omega
    simp only [List.length_cons] at hle
    rw [hpass, optionLoop_pass (by simp only; omega) (by simpa [hkey.head] using hc.1)
      (by simpa [hkey.head] using hc.2)]
    simp only [hkey.head, Ne.symm hend.1, and_false, if_false, OptionScan.noteStart, hstart, ne_eq,
      not_true_eq_false, false_and]
    rw [ih hkey.tail (by omega) hend.2 fun c' hc' => hfree c' (List.mem_cons_of_mem _ hc')]
    simp only [List.length_cons]
    rw [show offset + 1 + key.length = offset + (key.length + 1) by omega]

theorem optionLoop_value {value : List UInt8} {fuel offset keyStart keyLength valueStart : ℕ}
    {options : List CommandOption} (hvalue : Holds line offset value)
    (hle : offset + value.length ≤ length) (hstart : keyStart ≠ 0) (hlength : keyLength ≠ 0)
    (hvstart : valueStart ≠ 0)
    (hfree : ∀ c ∈ value, c ≠ optionSeparator ∧ c ≠ requestPartSeparator) :
    optionLoop alloc line length (value.length + fuel)
        ⟨offset, keyStart, keyLength, valueStart, options⟩ =
      optionLoop alloc line length fuel
        ⟨offset + value.length, keyStart, keyLength, valueStart, options⟩ := by
  induction value generalizing offset with
  | nil => simp
  | cons c value ih =>
    have hc := hfree c List.mem_cons_self
    have hpass : (c :: value).length + fuel = value.length + fuel + 1 := by simp; omega
    simp only [List.length_cons] at hle
    rw [hpass, optionLoop_pass (by simp only; omega) (by simpa [hvalue.head] using hc.1)
      (by simpa [hvalue.head] using hc.2)]
    simp only [hlength, false_and, if_false, OptionScan.noteStart, hstart, hvstart, and_false]
    rw [ih hvalue.tail (by omega) fun c' hc' => hfree c' (List.mem_cons_of_mem _ hc')]
    simp only [List.length_cons]
    rw [show offset + 1 + value.length = offset + (value.length + 1) by omega]

/-- The loop reads the first character of a key, be it a `=` or not. -/
theorem optionLoop_first {c : UInt8} {fuel offset : ℕ} {options : List CommandOption}
    (hhead : line offset = c) (hlt : offset < length)
    (hc : c ≠ optionSeparator ∧ c ≠ requestPartSeparator) :
    optionLoop alloc line length (fuel + 1) ⟨offset, 0, 0, 0, options⟩ =
      optionLoop alloc line length fuel ⟨offset + 1, offset, 0, 0, options⟩ := by
  rw [optionLoop_pass hlt (by simpa [hhead] using hc.1) (by simpa [hhead] using hc.2)]
  by_cases heq : c = optionEndOfKey
  · simp [hhead, heq, OptionScan.noteStart]
  · simp [hhead, heq, OptionScan.noteStart]

/-- The loop reads the `=` behind a key and the value behind that. -/
theorem optionLoop_endOfKey {value : List UInt8} {fuel offset keyStart : ℕ}
    {options : List CommandOption} (htext : Holds line offset (optionEndOfKey :: value))
    (hle : offset + 1 + value.length ≤ length) (hstart : keyStart ≠ 0) (hkey : keyStart < offset)
    (hfree : ∀ c ∈ value, c ≠ optionSeparator ∧ c ≠ requestPartSeparator) :
    optionLoop alloc line length (value.length + 1 + fuel) ⟨offset, keyStart, 0, 0, options⟩ =
      optionLoop alloc line length fuel ⟨offset + 1 + value.length, keyStart, offset - keyStart,
        if value = [] then 0 else offset + 1, options⟩ := by
  rw [show value.length + 1 + fuel = value.length + fuel + 1 by omega,
    optionLoop_pass (by simp only; omega) (by simp [htext.head, optionEndOfKey, optionSeparator])
      (by simp [htext.head, optionEndOfKey, requestPartSeparator])]
  simp only [htext.head, and_self, if_true, OptionScan.noteStart, hstart, if_false, ne_eq,
    not_true_eq_false, false_and]
  have hrest := htext.tail
  have hlength : offset - keyStart ≠ 0 := by omega
  cases value with
  | nil => simp
  | cons v value =>
    have hv := hfree v List.mem_cons_self
    simp only [List.length_cons] at hle ⊢
    rw [show value.length + 1 + fuel = value.length + fuel + 1 by omega,
      optionLoop_pass (by simp only; omega) (by simpa [hrest.head] using hv.1)
        (by simpa [hrest.head] using hv.2)]
    simp only [hlength, false_and, if_false, OptionScan.noteStart, hstart, ne_eq,
      not_false_eq_true, true_and, if_true]
    rw [optionLoop_value hrest.tail (by omega) hstart hlength (by omega)
      fun c' hc' => hfree c' (List.mem_cons_of_mem _ hc'), if_neg (List.cons_ne_nil _ _),
      show offset + 1 + 1 + value.length = offset + 1 + (value.length + 1) by omega]

/-- **The loop reads a piece of the line**, up to the character that ends it. -/
theorem optionLoop_piece {text : List UInt8} {fuel offset : ℕ} {options : List CommandOption}
    (htext : Holds line offset text) (hle : offset + text.length ≤ length) (hoffset : offset ≠ 0)
    (hfree : ∀ c ∈ text, c ≠ optionSeparator ∧ c ≠ requestPartSeparator) :
    optionLoop alloc line length (text.length + fuel) ⟨offset, 0, 0, 0, options⟩ =
      optionLoop alloc line length fuel (.behind offset options text) := by
  cases text with
  | nil => simp [OptionScan.behind, splitOption]
  | cons c text =>
    simp only [List.length_cons] at hle
    rw [List.length_cons, show text.length + 1 + fuel = text.length + fuel + 1 by omega,
      optionLoop_first htext.head (by omega) (hfree c List.mem_cons_self)]
    have hrest : ∀ c' ∈ text, c' ≠ optionSeparator ∧ c' ≠ requestPartSeparator :=
      fun c' hc' => hfree c' (List.mem_cons_of_mem _ hc')
    by_cases hmem : optionEndOfKey ∈ text
    · obtain ⟨key, value, rfl, hkey⟩ := List.eq_append_cons_of_mem hmem
      have hsplit : splitOption (c :: (key ++ optionEndOfKey :: value)) = some ⟨c :: key, value⟩ :=
        splitOption_eq_some_iff.2 ⟨rfl, List.cons_ne_nil _ _, hkey⟩
      simp only [List.length_append, List.length_cons] at hle ⊢
      rw [show key.length + (value.length + 1) + fuel = key.length + (value.length + 1 + fuel) by
          omega,
        optionLoop_key htext.tail.left (by omega) hoffset hkey
          fun c' hc' => hrest c' (List.mem_append_left _ hc'),
        optionLoop_endOfKey htext.tail.right (by omega) hoffset (by omega)
          fun c' hc' => hrest c' (List.mem_append_right _ (List.mem_cons_of_mem _ hc'))]
      simp only [OptionScan.behind, hsplit, List.length_cons, List.length_append]
      rw [show offset + 1 + key.length - offset = key.length + 1 by omega,
        show offset + 1 + key.length + 1 + value.length =
          offset + (key.length + (value.length + 1) + 1) by omega,
        show offset + 1 + key.length + 1 = offset + (key.length + 1) + 1 by omega]
    · rw [optionLoop_key htext.tail (by omega) hoffset hmem hrest]
      simp only [OptionScan.behind, splitOption, hmem, if_false, List.length_cons,
        List.cons_ne_nil]
      rw [show offset + 1 + text.length = offset + (text.length + 1) by omega]

/-- **What the end of a piece does** is determined by the piece and the options recorded before. -/
theorem endOption_piece {text : List UInt8} {offset : ℕ} {recorded : List CommandOption}
    (htext : Holds line offset text) (hoffset : offset ≠ 0)
    (hrecorded : ∀ other ∈ recorded, optionEndOfKey ∉ other.name.tail) :
    endOption alloc line (OptionScan.behind offset recorded text).noteStart =
      readOption alloc recorded text >>= fun options =>
        pure ⟨offset + text.length, 0, 0, 0, options⟩ := by
  cases hsplit : splitOption text with
  | none =>
    have hkey : (OptionScan.behind offset recorded text).noteStart.keyLength = 0 := by
      unfold OptionScan.noteStart OptionScan.behind
      simp only [hsplit]
      split_ifs <;> rfl
    rw [endOption, if_pos (.inr (.inl hkey)), readOption, hsplit]
    rfl
  | some option =>
    obtain ⟨rfl, hne, hkey⟩ := splitOption_eq_some_iff.1 hsplit
    have hname : option.name.length ≠ 0 := fun h => hne (List.length_eq_zero_iff.1 h)
    have hlen : option.text.length = option.name.length + 1 + option.value.length := by
      simp [CommandOption.text]; omega
    -- an empty value starts where the option ends
    have hnote : (OptionScan.behind offset recorded option.text).noteStart =
        ⟨offset + option.text.length, offset, option.name.length, offset + option.name.length + 1,
          recorded⟩ := by
      simp only [OptionScan.behind, hsplit]
      by_cases hv : option.value = []
      · simp only [OptionScan.noteStart, hoffset, hv, hname, if_true, if_false, ne_eq,
          not_false_eq_true, true_and]
        congr 1
        simp [hlen, hv]
        omega
      · simp [OptionScan.noteStart, hoffset, hv]
    have hsearch : (recorded.dropLast.any fun other => strEq (lineFrom line offset) other.name) =
        decide (Repeats recorded option) := by
      rw [Bool.eq_iff_iff, List.any_eq_true, decide_eq_true_eq]
      constructor
      · rintro ⟨other, hother, heq⟩
        obtain ⟨hzero, hsame⟩ := (strEq_name htext hne
          (hrecorded other (List.dropLast_subset _ hother))).1 heq
        exact ⟨hzero, other, hother, hsame⟩
      · rintro ⟨hzero, other, hother, hsame⟩
        exact ⟨other, hother, (strEq_name htext hne
          (hrecorded other (List.dropLast_subset _ hother))).2 ⟨hzero, hsame⟩⟩
    have hvalue : offset + option.text.length - (offset + option.name.length + 1) =
        option.value.length := by omega
    have hcopy := htext.right.tail.copy
    rw [hnote, endOption, if_neg (by simp only; omega), readOption, hsplit]
    simp only [addOption, hsearch, hvalue, htext.left.copy, hcopy, decide_eq_true_eq]

/-- The character at which the options end: the end of the line, or a space behind which the loop
leaves its offset. -/
def OptionsEnd (line : ℕ → UInt8) (length e final : ℕ) : Prop :=
  e = length ∧ final = e ∨ e < length ∧ line e = requestPartSeparator ∧ final = e + 1

/-- The last piece ends the loop. -/
theorem optionLoop_last {text : List UInt8} {fuel offset final : ℕ} {recorded : List CommandOption}
    (htext : Holds line offset text) (hoffset : offset ≠ 0)
    (hfree : ∀ c ∈ text, c ≠ optionSeparator ∧ c ≠ requestPartSeparator)
    (hrecorded : ∀ other ∈ recorded, optionEndOfKey ∉ other.name.tail)
    (hend : OptionsEnd line length (offset + text.length) final) (hfuel : length < fuel + offset) :
    optionLoop alloc line length fuel ⟨offset, 0, 0, 0, recorded⟩ =
      readOption alloc recorded text >>= fun options => pure ⟨final, 0, 0, 0, options⟩ := by
  have hle : offset + text.length ≤ length := by rcases hend with h | h <;> omega
  obtain ⟨fuel, rfl⟩ : ∃ k, fuel = text.length + (k + 1) := ⟨fuel - text.length - 1, by omega⟩
  have hbehind : (OptionScan.behind offset recorded text).offset = offset + text.length := by
    unfold OptionScan.behind
    split <;> rfl
  rw [optionLoop_piece htext hle hoffset hfree]
  rcases hend with ⟨hlast, rfl⟩ | ⟨hlt, hspace, rfl⟩
  · rw [optionLoop_endOfLine (hbehind.trans hlast), endOption_piece htext hoffset hrecorded]
  · rw [optionLoop_space (by rwa [hbehind]) (by rwa [hbehind]),
      endOption_piece htext hoffset hrecorded, bind_assoc]
    simp only [pure_bind]

/-- Behind a piece that ends at a `;` the loop goes on with the next one. -/
theorem optionLoop_next {text : List UInt8} {fuel offset : ℕ} {recorded : List CommandOption}
    (htext : Holds line offset text) (hoffset : offset ≠ 0)
    (hfree : ∀ c ∈ text, c ≠ optionSeparator ∧ c ≠ requestPartSeparator)
    (hrecorded : ∀ other ∈ recorded, optionEndOfKey ∉ other.name.tail)
    (hlt : offset + text.length < length) (hsep : line (offset + text.length) = optionSeparator) :
    optionLoop alloc line length (text.length + 1 + fuel) ⟨offset, 0, 0, 0, recorded⟩ =
      readOption alloc recorded text >>= fun options =>
        optionLoop alloc line length fuel ⟨offset + text.length + 1, 0, 0, 0, options⟩ := by
  have hbehind : (OptionScan.behind offset recorded text).offset = offset + text.length := by
    unfold OptionScan.behind
    split <;> rfl
  rw [show text.length + 1 + fuel = text.length + (fuel + 1) by omega,
    optionLoop_piece htext hlt.le hoffset hfree,
    optionLoop_separator (by rwa [hbehind]) (by rwa [hbehind]),
    endOption_piece htext hoffset hrecorded, bind_assoc]
  simp only [pure_bind]

/-- Every text on the line starts with a piece. -/
theorem exists_piece (line : ℕ → UInt8) {offset length : ℕ} (hle : offset ≤ length) :
    ∃ text, Holds line offset text ∧
      (∀ c ∈ text, c ≠ optionSeparator ∧ c ≠ requestPartSeparator) ∧
      (offset + text.length = length ∨ offset + text.length < length ∧
        (line (offset + text.length) = requestPartSeparator ∨
          line (offset + text.length) = optionSeparator)) := by
  induction hk : length - offset generalizing offset with
  | zero => exact ⟨[], .nil, by simp, .inl (by simp only [List.length_nil]; omega)⟩
  | succ k ih =>
    by_cases hstop : line offset = requestPartSeparator ∨ line offset = optionSeparator
    · exact ⟨[], .nil, by simp, .inr ⟨by simp only [List.length_nil]; omega, hstop⟩⟩
    · push Not at hstop
      obtain ⟨text, htext, hfree, hend⟩ := ih (show offset + 1 ≤ length by omega) (by omega)
      refine ⟨line offset :: text, .cons rfl htext, ?_, ?_⟩
      · rintro c (_ | ⟨_, hc⟩)
        · exact ⟨hstop.2, hstop.1⟩
        · exact hfree c hc
      · rwa [List.length_cons,
          show offset + (text.length + 1) = offset + 1 + text.length by omega]

end

end XprcServer
