import XprcServer.Decimal
import XprcServer.Lib.Buffer
import XprcServer.Session.Dialogue

/-!
# The bytes of a message

`send_channel` computes the length of the line with `int` arithmetic, allocates as many bytes and
one more, and copies the fields one behind the other (`composeLine`).  The width of the timestamp
is counted by `num_digits`, whose parameter is an `int`: of a longer timestamp it sees the lowest 32
bits.

* `numDigits_toInt32_eq_iff` : for which timestamps the count is right (`TimestampFits`);
* `composeLine_eq` : the line that is handed over is `channelLine`, as long as its length fits an
  `int`;
* `sendChannelLine_eq_expected_iff` : the line has the bytes of the protocol exactly for these
  timestamps.
-/

namespace XprcServer

open Lib

/-! ### Counting digits -/

/-- The loop of `num_digits` counts the digits of a number it can reach the end of. -/
theorem numDigitsLoop_le_iff {fuel n : ℕ} (h : n < 10 ^ fuel) (k : ℕ) :
    numDigitsLoop fuel n ≤ k ↔ n < 10 ^ k := by
  induction fuel generalizing n k with
  | zero =>
    have : 0 < 10 ^ k := Nat.pow_pos (by omega)
    simp only [numDigitsLoop, Nat.pow_zero] at h ⊢
    omega
  | succ fuel ih =>
    have hpos : 0 < 10 ^ k := Nat.pow_pos (by omega)
    rw [numDigitsLoop]
    by_cases hn : 0 < n
    · rw [if_pos hn]
      cases k with
      | zero => omega
      | succ k =>
        have hdiv : n / 10 < 10 ^ fuel := by rw [Nat.pow_succ] at h; omega
        rw [Nat.add_le_add_iff_right, ih hdiv, Nat.pow_succ]
        omega
    · rw [if_neg hn]
      omega

theorem numDigits_eq {value : ℤ} (h : value.natAbs < 2 ^ 31) :
    numDigits value = (decimal value.natAbs).length := by
  have habs : (if value < 0 then toInt32 (-value) else value).toNat = value.natAbs := by
    split_ifs with hneg
    · rw [toInt32, Int.bmod_eq_of_le (by omega) (by omega)]
      omega
    · omega
  have hpos := decimal_length_pos value.natAbs
  have hloop : ∀ k, numDigitsLoop 10 value.natAbs ≤ k ↔ value.natAbs < 10 ^ k :=
    numDigitsLoop_le_iff (by omega)
  unfold numDigits
  rw [habs]
  by_cases h0 : value = 0
  · rw [if_pos h0, h0]
    rfl
  · rw [if_neg h0]
    -- both counts are at most `k` for the same `k`
    have hfirst : 0 < numDigitsLoop 10 value.natAbs := by
      by_contra hzero
      have := (hloop 0).1 (by omega)
      omega
    apply Nat.le_antisymm
    · exact (hloop _).2 ((decimal_length_le_iff _ hpos).1 (Nat.le_refl _))
    · exact (decimal_length_le_iff _ hfirst).2 ((hloop _).1 (Nat.le_refl _))

/-- The timestamp has as many digits as the `int` it is converted to: it is an `int` itself, or it
has ten digits and so does the `int`, other than the least one, which counts none. -/
def TimestampFits (timestamp : ℤ) : Prop :=
  timestamp < 2 ^ 31 ∨
    timestamp < 10 ^ 10 ∧ 10 ^ 9 ≤ (toInt32 timestamp).natAbs ∧ toInt32 timestamp ≠ -2 ^ 31

instance (timestamp : ℤ) : Decidable (TimestampFits timestamp) :=
  inferInstanceAs (Decidable (_ ∨ _))

theorem numDigits_least : numDigits (-2 ^ 31) = 0 := by decide

/-- What `num_digits` counts of a timestamp: the digits of the `int`, or none of the least one. -/
theorem numDigits_toInt32 (timestamp : ℤ) :
    numDigits (toInt32 timestamp) =
      if toInt32 timestamp = -2 ^ 31 then 0 else (decimal (toInt32 timestamp).natAbs).length := by
  obtain ⟨h1, h2⟩ := toInt32_bounds timestamp
  split_ifs with hleast
  · rw [hleast, numDigits_least]
  · exact numDigits_eq (by omega)

theorem numDigits_toInt32_le (timestamp : ℤ) : numDigits (toInt32 timestamp) ≤ 10 := by
  obtain ⟨h1, h2⟩ := toInt32_bounds timestamp
  rw [numDigits_toInt32]
  split_ifs with hleast
  · omega
  · rw [decimal_length_le_iff _ (by omega)]
    omega

/-- **The width of a timestamp is counted right exactly if it fits.** -/
theorem numDigits_toInt32_eq_iff {timestamp : ℤ} (h0 : 0 ≤ timestamp) :
    numDigits (toInt32 timestamp) = (decimal timestamp.toNat).length ↔ TimestampFits timestamp := by
  have hle := numDigits_toInt32_le timestamp
  obtain ⟨h1, h2⟩ := toInt32_bounds timestamp
  by_cases hint : timestamp < 2 ^ 31
  · refine iff_of_true ?_ (.inl hint)
    rw [toInt32_of_lt (by omega) hint, numDigits_eq (by omega)]
    rw [show timestamp.natAbs = timestamp.toNat by omega]
  · -- ten digits or more, while the `int` has ten at most
    have hten : ¬ (decimal timestamp.toNat).length ≤ 9 := by
      rw [decimal_length_le_iff _ (by omega)]
      omega
    have hbelow : (decimal timestamp.toNat).length ≤ 10 ↔ timestamp < 10 ^ 10 := by
      rw [decimal_length_le_iff _ (by omega)]
      omega
    have hcount : ¬ numDigits (toInt32 timestamp) ≤ 9 ↔
        10 ^ 9 ≤ (toInt32 timestamp).natAbs ∧ toInt32 timestamp ≠ -2 ^ 31 := by
      rw [numDigits_toInt32]
      split_ifs with hleast
      · simp [hleast]
      · rw [decimal_length_le_iff _ (by omega)]
        omega
    constructor
    · intro heq
      exact .inr ⟨hbelow.1 (by omega), hcount.1 (by omega)⟩
    · rintro (hlt | ⟨hlt, hdigits⟩)
      · exact absurd hlt hint
      · have := hbelow.2 hlt
        have := hcount.2 hdigits
        omega

/-! ### Composing the line -/

/-- `snprintf(dest, width + 1, …)` of a text, and `dest += width`: at most `width` characters and a
NUL behind them. -/
def printBounded (out : Buffer UInt8) (width : ℕ) (text : List UInt8) : Access (Buffer UInt8) := do
  let printed ← out.put (text.take width ++ [0])
  return { printed with position := out.position + width }

section

variable (channel : Channel) (action : ChannelAction) (timestamp : ℤ)
  (message : Option (List UInt8))

/-- The fields in front of the timestamp. -/
def lineHead (needsPrefix : Bool) : List (List UInt8) :=
  [if action.channelContinues then 43 else 45] ::
    (if needsPrefix then [bytes (if action = .err then "ERR " else "ACK ")] else []) ++
    [channelIdToString channel.id, [32]]

/-- The fields behind the timestamp. -/
def lineTail (text : List UInt8) (messageLength : ℤ) : List (List UInt8) :=
  (if 0 < messageLength then [[32], text.take messageLength.toNat] else []) ++ [[10]]

/-- The part of `send_channel` that composes the line: the bytes and the length that are handed to
`send_to_network`.  `alloc` is the outcome of the allocation; a size that is not positive is never
allocated.  (`num_digits` is never negative, so that the timestamp is never reset.) -/
def composeLine (alloc : Bool) : Access (Except ErrorCode (List UInt8 × ℤ)) := do
  let text := messageText message
  let timestampLength := numDigits (toInt32 timestamp)
  let messageLength := toInt32 text.length
  let needsPrefix := messageLength = 0 || channel.state = .initial || action = .err
  let outLength := toInt32 (1 + 4 + 1 + timestampLength + 1 +
    (if 0 < messageLength then 1 + messageLength else 0) + if needsPrefix then 4 else 0)
  let size := toInt32 (outLength + 1)
  if size ≤ 0 || !alloc then return .error .memoryAllocation
  let out ← (Buffer.zeroed 0 size.toNat).putAll (lineHead channel action needsPrefix)
  let out ← printBounded out timestampLength (decimal timestamp.toNat)
  let out ← out.putAll (lineTail text messageLength)
  return .ok (out.cells.take outLength.toNat, outLength)

/-- `send_channel` up to the call of `send_to_network`; `now` is what the session's clock says. -/
def sendChannelLine (alloc : Bool) (now : ℤ) : Access (Except ErrorCode (List UInt8 × ℤ)) :=
  let timestamp := if timestamp = currentTimeReference then now else timestamp
  if timestamp < 0 then some (.error .unspecific)
  else if action.forbidden channel.state then some (.error .sessionInvalidChannelState)
  else composeLine channel action timestamp message alloc

/-- The bytes the protocol asks for. -/
def expectedLine : List UInt8 :=
  let text := messageText message
  [if action.channelContinues then 43 else 45] ++ -- '+', '-'
    (if action = .err then bytes "ERR "
      else if text = [] ∨ channel.state = .initial then bytes "ACK " else []) ++
    channelIdToString channel.id ++ [32] ++ decimal timestamp.toNat ++
    (if text = [] then [] else 32 :: text) ++ [10]

end

section

variable {channel : Channel} {action : ChannelAction} {timestamp : ℤ}
  {message : Option (List UInt8)}

theorem printBounded_holds (text : List UInt8) {out : Buffer UInt8} {written : List UInt8}
    {room width : ℕ} (h : out.Holds 0 written room) (hfit : width + 1 ≤ room) :
    ∃ out', printBounded out width text = some out' ∧
      out'.Holds 0 (written ++ (text.take width ++
        List.replicate (width - (text.take width).length) 0)) (room - width) := by
  have hlen : (text.take width).length ≤ width := by rw [List.length_take]; omega
  obtain ⟨printed, hput, hprinted⟩ := h.put
    (show (text.take width ++ [0]).length ≤ room by
      rw [List.length_append, List.length_singleton]; omega)
  refine ⟨_, by rw [printBounded, hput]; rfl, ?_, ?_⟩
  · rw [hprinted.cells, List.length_append, List.length_singleton]
    simp only [List.append_assoc, List.append_cancel_left_eq]
    rw [← List.replicate_one, ← List.replicate_add, ← List.replicate_add]
    congr 1
    omega
  · simp only [h.position, List.length_append, List.length_replicate]
    omega

theorem timestampText_eq (timestamp : ℤ) :
    timestampText timestamp = (decimal timestamp.toNat).take (numDigits (toInt32 timestamp)) ++
      List.replicate (numDigits (toInt32 timestamp) -
        ((decimal timestamp.toNat).take (numDigits (toInt32 timestamp))).length) 0 := rfl

theorem timestampText_length (timestamp : ℤ) :
    (timestampText timestamp).length = numDigits (toInt32 timestamp) := by
  rw [timestampText_eq, List.length_append, List.length_replicate, List.length_take]
  omega

theorem bytes_statePrefix_length (p : Prop) [Decidable p] :
    (bytes (if p then "ERR " else "ACK ")).length = 4 := by
  split_ifs <;> rfl

theorem lineHead_length (needsPrefix : Bool) :
    (lineHead channel action needsPrefix).flatten.length = if needsPrefix then 10 else 6 := by
  cases needsPrefix <;> simp [lineHead, channelIdToString, bytes_statePrefix_length]

theorem lineTail_length {text : List UInt8} :
    (lineTail text text.length).flatten.length =
      (if 0 < text.length then 1 + text.length else 0) + 1 := by
  by_cases h : 0 < text.length
  · simp [lineTail, h]
    omega
  · simp [lineTail, h]

/-- The fields one behind the other are the line. -/
theorem channelLine_eq_fields (channel : Channel) (action : ChannelAction) (timestamp : ℤ)
    (message : Option (List UInt8)) :
    channelLine channel action timestamp message =
      (lineHead channel action (needsStatePrefix channel action (messageText message))).flatten ++
        timestampText timestamp ++
        (lineTail (messageText message) (messageText message).length).flatten := by
  have htail : (lineTail (messageText message) (messageText message).length).flatten =
      (if 0 < (messageText message).length then 32 :: messageText message else []) ++ [10] := by
    by_cases h : 0 < (messageText message).length <;> simp [lineTail, h]
  have hhead : (lineHead channel action
      (needsStatePrefix channel action (messageText message))).flatten =
      [if action.channelContinues then 43 else 45] ++
        (if needsStatePrefix channel action (messageText message) then
          bytes (if action = .err then "ERR " else "ACK ") else []) ++
        channelIdToString channel.id ++ [32] := by
    cases needsStatePrefix channel action (messageText message) <;> simp [lineHead]
  rw [htail, hhead]
  simp only [channelLine, messageText, List.append_assoc]
  rfl

theorem channelLine_length (channel : Channel) (action : ChannelAction) (timestamp : ℤ)
    (message : Option (List UInt8)) :
    (channelLine channel action timestamp message).length =
      (if needsStatePrefix channel action (messageText message) then 10 else 6) +
        numDigits (toInt32 timestamp) +
        ((if 0 < (messageText message).length then 1 + (messageText message).length else 0) +
          1) := by
  rw [channelLine_eq_fields, List.length_append, List.length_append, lineHead_length,
    lineTail_length, timestampText_length]

/-- **The line that is handed over is `channelLine`**, with its length, if the length fits an
`int`. -/
theorem composeLine_eq (h : (channelLine channel action timestamp message).length < 2 ^ 31 - 1) :
    composeLine channel action timestamp message true =
      some (.ok (channelLine channel action timestamp message,
        (channelLine channel action timestamp message).length)) := by
  have hlength := channelLine_length channel action timestamp message
  have hfields := channelLine_eq_fields channel action timestamp message
  generalize channelLine channel action timestamp message = line at *
  unfold composeLine
  generalize messageText message = text at *
  have hmessage : toInt32 text.length = text.length :=
    toInt32_of_lt (by omega) (by split_ifs at hlength <;> omega)
  have hprefix : (decide ((text.length : ℤ) = 0) || decide (channel.state = .initial) ||
      decide (action = .err)) = needsStatePrefix channel action text := by
    simp only [needsStatePrefix, Int.natCast_eq_zero]
  simp only [hmessage, hprefix]
  generalize needsStatePrefix channel action text = needsPrefix at *
  have hout : toInt32 (1 + 4 + 1 + (numDigits (toInt32 timestamp) : ℤ) + 1 +
      (if (0 : ℤ) < text.length then 1 + (text.length : ℤ) else 0) + if needsPrefix then 4 else 0) =
      line.length := by
    have hsum : (1 + 4 + 1 + (numDigits (toInt32 timestamp) : ℤ) + 1 +
        (if (0 : ℤ) < text.length then 1 + (text.length : ℤ) else 0) +
        if needsPrefix then 4 else 0) = line.length := by
      rw [hlength]
      split_ifs <;> push_cast <;> omega
    rw [hsum]
    exact toInt32_of_lt (by omega) (by omega)
  have hsize : toInt32 ((line.length : ℤ) + 1) = (line.length + 1 : ℕ) := by
    rw [toInt32_of_lt (by omega) (by omega)]
    push_cast
    rfl
  simp only [hout, hsize, Int.toNat_natCast]
  rw [if_neg (by simp)]
  -- the fields are written one behind the other into the zeroed buffer
  obtain ⟨b1, h1, hb1⟩ := (Buffer.holds_zeroed (0 : UInt8) (line.length + 1)).putAll
    (show (lineHead channel action needsPrefix).flatten.length ≤ line.length + 1 by
      rw [lineHead_length]; split_ifs at * <;> omega)
  obtain ⟨b2, h2, hb2⟩ := printBounded_holds (decimal timestamp.toNat) hb1
    (show numDigits (toInt32 timestamp) + 1 ≤ _ by
      rw [lineHead_length]; split_ifs at * <;> omega)
  obtain ⟨b3, h3, hb3⟩ := hb2.putAll
    (show (lineTail text text.length).flatten.length ≤ _ by
      rw [lineHead_length, lineTail_length]; split_ifs at * <;> omega)
  rw [h1]
  simp only [Option.bind_eq_bind, Option.bind_some, h2, h3]
  rw [← timestampText_eq, List.nil_append, ← hfields] at hb3
  rw [hb3.cells, List.take_left' rfl]
  rfl

/-- A line is only handed over if the allocation succeeds, and its length is below the greatest
`int`. -/
theorem composeLine_length_lt {alloc : Bool} {line : List UInt8} {outLength : ℤ}
    (h : composeLine channel action timestamp message alloc = some (.ok (line, outLength))) :
    alloc = true ∧ outLength < 2 ^ 31 - 1 := by
  unfold composeLine at h
  simp only [] at h
  generalize hout : toInt32 (1 + 4 + 1 + (numDigits (toInt32 timestamp) : ℤ) + 1 + _ + _) = computed
    at h
  have hbound : -2 ^ 31 ≤ computed ∧ computed < 2 ^ 31 := hout ▸ toInt32_bounds _
  split_ifs at h with hfail
  · cases h
  rw [Bool.or_eq_true, not_or, decide_eq_true_eq, Bool.not_eq_true', Bool.not_eq_false,
    Int.not_le] at hfail
  obtain ⟨hsize, halloc⟩ := hfail
  simp only [Option.bind_eq_bind, Option.bind_eq_some_iff] at h
  obtain ⟨b1, -, b2, -, b3, -, hresult⟩ := h
  simp only [Option.pure_def, Option.some.injEq, Except.ok.injEq, Prod.mk.injEq] at hresult
  -- the greatest `int` has no successor
  have hne : computed ≠ 2 ^ 31 - 1 := by
    rintro rfl
    exact absurd hsize (by decide)
  exact ⟨halloc, by rw [← hresult.2]; omega⟩

theorem timestampText_eq_decimal_iff (h0 : 0 ≤ timestamp) :
    timestampText timestamp = decimal timestamp.toNat ↔ TimestampFits timestamp := by
  rw [← numDigits_toInt32_eq_iff h0]
  constructor
  · intro h
    rw [← timestampText_length, h]
  · intro h
    rw [timestampText_eq, h, List.take_length, Nat.sub_self, List.replicate_zero, List.append_nil]

/-- The width that is counted is never too large. -/
theorem numDigits_toInt32_le_decimal (h0 : 0 ≤ timestamp) :
    numDigits (toInt32 timestamp) ≤ (decimal timestamp.toNat).length := by
  by_cases hint : timestamp < 2 ^ 31
  · exact Nat.le_of_eq ((numDigits_toInt32_eq_iff h0).2 (.inl hint))
  · have hten : ¬ (decimal timestamp.toNat).length ≤ 9 := by
      rw [decimal_length_le_iff _ (by omega)]
      omega
    have := numDigits_toInt32_le timestamp
    omega

/-- The line of the protocol has the same fields with another timestamp. -/
theorem expectedLine_eq_fields (channel : Channel) (action : ChannelAction) (timestamp : ℤ)
    (message : Option (List UInt8)) :
    expectedLine channel action timestamp message =
      (lineHead channel action (needsStatePrefix channel action (messageText message))).flatten ++
        decimal timestamp.toNat ++
        (lineTail (messageText message) (messageText message).length).flatten := by
  have htail : (lineTail (messageText message) (messageText message).length).flatten =
      (if messageText message = [] then [] else 32 :: messageText message) ++ [10] := by
    by_cases h : messageText message = []
    · simp [lineTail, h]
    · simp [lineTail, h, List.length_pos_iff]
  have hhead : (lineHead channel action
      (needsStatePrefix channel action (messageText message))).flatten =
      [if action.channelContinues then 43 else 45] ++
        (if action = .err then bytes "ERR "
          else if messageText message = [] ∨ channel.state = .initial then bytes "ACK " else []) ++
        channelIdToString channel.id ++ [32] := by
    by_cases herr : action = .err
    · simp [lineHead, needsStatePrefix, herr]
    · by_cases hack : messageText message = [] ∨ channel.state = .initial
      · have hneeds : needsStatePrefix channel action (messageText message) = true := by
          rcases hack with h | h <;> simp [needsStatePrefix, h]
        simp [lineHead, hneeds, herr, hack]
      · have hneeds : needsStatePrefix channel action (messageText message) = false := by
          rw [not_or] at hack
          simp [needsStatePrefix, herr, hack.1, hack.2]
        simp [lineHead, hneeds, herr, hack]
  rw [htail, hhead]
  simp only [expectedLine, List.append_assoc]

/-- **Exactly the lines whose timestamp fits have the bytes of the protocol.**  For every channel
and every action that is allowed in its state, every message and every timestamp from 0 on:
`send_channel` hands the expected bytes and their number to `send_to_network` iff the timestamp has
as many digits as the `int` it is converted to, the line is shorter than the greatest `int`, and
its memory can be allocated. -/
theorem sendChannelLine_eq_expected_iff (channel : Channel) (action : ChannelAction)
    (timestamp : ℤ) (message : Option (List UInt8)) (alloc : Bool) (now : ℤ)
    (h0 : 0 ≤ timestamp) (hallowed : action.forbidden channel.state = false) :
    sendChannelLine channel action timestamp message alloc now =
        some (.ok (expectedLine channel action timestamp message,
          (expectedLine channel action timestamp message).length)) ↔
      TimestampFits timestamp ∧
        (expectedLine channel action timestamp message).length < 2 ^ 31 - 1 ∧ alloc = true := by
  have hnow : timestamp ≠ currentTimeReference := by
    rw [currentTimeReference]
    omega
  have hsend : sendChannelLine channel action timestamp message alloc now =
      composeLine channel action timestamp message alloc := by
    simp only [sendChannelLine, hnow, if_false]
    rw [if_neg (by omega), if_neg (by simp [hallowed])]
  have hlengths : (channelLine channel action timestamp message).length ≤
      (expectedLine channel action timestamp message).length := by
    rw [channelLine_eq_fields, expectedLine_eq_fields]
    simp only [List.length_append, timestampText_length]
    have := numDigits_toInt32_le_decimal h0
    omega
  have hlines : channelLine channel action timestamp message =
      expectedLine channel action timestamp message ↔ TimestampFits timestamp := by
    rw [channelLine_eq_fields, expectedLine_eq_fields, List.append_cancel_right_eq,
      List.append_cancel_left_eq, timestampText_eq_decimal_iff h0]
  rw [hsend]
  constructor
  · intro h
    obtain ⟨halloc, hlt⟩ := composeLine_length_lt h
    rw [halloc, composeLine_eq (by omega)] at h
    injection h with h
    injection h with h
    exact ⟨hlines.1 (congrArg Prod.fst h), by omega, halloc⟩
  · rintro ⟨hfits, hlt, rfl⟩
    rw [composeLine_eq (by omega), hlines.2 hfits]

/-- The channel `ab12`, confirmed, without a command. -/
def exampleChannel : Channel := ⟨7542, .confirmed, false, none, none⟩

theorem sendChannelLine_eq_expected_hello :
    sendChannelLine exampleChannel .continues 4294967295 (some (bytes "hello")) true 0 =
        some (.ok (expectedLine exampleChannel .continues 4294967295 (some (bytes "hello")),
          (expectedLine exampleChannel .continues 4294967295 (some (bytes "hello"))).length)) ↔
      TimestampFits 4294967295 ∧
        (expectedLine exampleChannel .continues 4294967295 (some (bytes "hello"))).length <
          2 ^ 31 - 1 ∧ true = true :=
  sendChannelLine_eq_expected_iff exampleChannel .continues 4294967295 (some (bytes "hello")) true 0
    (by decide) (by decide)

/-- After 50 days and a bit the timestamp loses all but its first digit. -/
theorem sendChannelLine_cut_timestamp :
    sendChannelLine exampleChannel .continues 4294967301 (some (bytes "hello")) true 0 =
        some (.ok (bytes "+ab12 4 hello\n", 14)) ∧
      expectedLine exampleChannel .continues 4294967301 (some (bytes "hello")) =
        bytes "+ab12 4294967301 hello\n" ∧
      bytes "+ab12 4 hello\n" ≠ bytes "+ab12 4294967301 hello\n" := by
  decide +kernel

end

end XprcServer
