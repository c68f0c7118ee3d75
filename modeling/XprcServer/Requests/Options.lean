import XprcServer.Requests.RoundTrip

/-!
# What a line decides

The line handed to `parse_request` is neither terminated nor alone in its buffer, and the parser
looks at the character behind it and compares names with all that follows them.

* `parseRequest_congr` : the result depends on the bytes of the line only;
* `asksWith_of_parseRequest` : a parsed line has the syntax of a request line with the options of
  the result;
* `namesUnique_iff` : for which lines the option names are kept distinct.  `add_option` compares the
  names before the last one with a text that goes on behind the name, so that it finds a repeated
  name only if a NUL ends the name early.
-/

namespace XprcServer

/-! ### Memory behind the line -/

section

variable {alloc : ℕ → Bool} {line line' : ℕ → UInt8} {length : ℕ}

theorem Holds.congr {start : ℕ} {text : List UInt8} (h : Holds line start text)
    (hle : start + text.length ≤ length) (hagree : ∀ i < length, line i = line' i) :
    Holds line' start text := by
  intro i hi
  rw [← hagree _ (by omega), h i hi]

theorem copyPartialString_congr {start count : ℕ} (hle : start + count ≤ length)
    (hagree : ∀ i < length, line i = line' i) :
    copyPartialString (lineFrom line start) count =
      copyPartialString (lineFrom line' start) count := by
  refine List.map_congr_left fun i hi => ?_
  rw [lineFrom, lineFrom, hagree _ (by rw [List.mem_range] at hi; omega)]

theorem stringToChannelIdLoop_congr {n : ℕ} {id : ChannelId} (hn : n ≤ 4)
    (hagree : ∀ i < 4, line i = line' i) :
    stringToChannelIdLoop line n id = stringToChannelIdLoop line' n id := by
  induction n generalizing id with
  | zero => rfl
  | succ n ih =>
    rw [stringToChannelIdLoop, stringToChannelIdLoop, hagree (3 - n) (by omega)]
    simp only [ih (by omega)]

/-- What follows a piece only matters for the option the piece is. -/
theorem readOption_bind_congr {α : Type} {recorded : List CommandOption} {text : List UInt8}
    {f g : List CommandOption → ParseM α}
    (h : ∀ option, splitOption text = some option →
      f (recorded ++ [option]) = g (recorded ++ [option])) :
    readOption alloc recorded text >>= f = readOption alloc recorded text >>= g := by
  cases hsplit : splitOption text with
  | none =>
    rw [readOption, hsplit]
    rfl
  | some option =>
    rw [readOption, hsplit]
    by_cases hrep : Repeats recorded option
    · simp only [if_pos hrep]
      rfl
    · simp only [if_neg hrep, bind_assoc, pure_bind, h option hsplit]

theorem recorded_tails {recorded : List CommandOption} {text : List UInt8} {option : CommandOption}
    (hrecorded : ∀ other ∈ recorded, optionEndOfKey ∉ other.name.tail)
    (hsplit : splitOption text = some option) :
    ∀ other ∈ recorded ++ [option], optionEndOfKey ∉ other.name.tail := by
  intro other hother
  rcases List.mem_append.1 hother with hother | hother
  · exact hrecorded other hother
  · rw [List.mem_singleton.1 hother]
    exact (splitOption_eq_some_iff.1 hsplit).2.2

/-- The option loop does not look behind the line. -/
theorem optionLoop_congr (hagree : ∀ i < length, line i = line' i) {fuel offset : ℕ}
    {recorded : List CommandOption} (hoffset : offset ≠ 0) (hle : offset ≤ length)
    (hfuel : length < fuel + offset)
    (hrecorded : ∀ other ∈ recorded, optionEndOfKey ∉ other.name.tail) :
    optionLoop alloc line length fuel ⟨offset, 0, 0, 0, recorded⟩ =
      optionLoop alloc line' length fuel ⟨offset, 0, 0, 0, recorded⟩ := by
  induction hk : length - offset using
    Nat.strong_induction_on generalizing offset fuel recorded with
  | _ k ih =>
    obtain ⟨text, htext, hfree, hend⟩ := exists_piece line hle
    have htext' := htext.congr (by rcases hend with h | h <;> omega) hagree
    rcases hend with hlast | ⟨hlt, hspace | hsep⟩
    · have hend : OptionsEnd line length (offset + text.length) length := .inl ⟨hlast, hlast.symm⟩
      have hend' : OptionsEnd line' length (offset + text.length) length := .inl ⟨hlast, hlast.symm⟩
      rw [optionLoop_last htext hoffset hfree hrecorded hend hfuel,
        optionLoop_last htext' hoffset hfree hrecorded hend' hfuel]
    · have hspace' := hspace
      rw [hagree _ hlt] at hspace'
      rw [optionLoop_last htext hoffset hfree hrecorded (.inr ⟨hlt, hspace, rfl⟩) hfuel,
        optionLoop_last htext' hoffset hfree hrecorded (.inr ⟨hlt, hspace', rfl⟩) hfuel]
    · have hsep' := hsep
      rw [hagree _ hlt] at hsep'
      obtain ⟨fuel, rfl⟩ : ∃ j, fuel = text.length + 1 + j := ⟨fuel - text.length - 1, by omega⟩
      rw [optionLoop_next htext hoffset hfree hrecorded hlt hsep,
        optionLoop_next htext' hoffset hfree hrecorded hlt hsep']
      refine readOption_bind_congr fun option hsplit => ?_
      exact ih (length - (offset + text.length + 1)) (by omega) (by omega) (by omega) (by omega)
        (recorded_tails hrecorded hsplit) rfl

theorem parameterLoop_congr (hagree : ∀ i < length, line i = line' i) {fuel offset start : ℕ}
    {parameters : List (List UInt8)} (hstart : start ≤ offset) :
    parameterLoop alloc line length fuel offset start parameters =
      parameterLoop alloc line' length fuel offset start parameters := by
  induction fuel generalizing offset start parameters with
  | zero => rfl
  | succ fuel ih =>
    rw [parameterLoop, parameterLoop]
    by_cases hlt : length < offset
    · rw [if_pos hlt, if_pos hlt]
    rw [if_neg hlt, if_neg hlt]
    have hend : (offset == length || line offset == parameterSeparator) =
        (offset == length || line' offset == parameterSeparator) := by
      by_cases heq : offset = length
      · simp [heq]
      · rw [hagree offset (by omega)]
    have hnote : (if start = 0 then offset else start) ≤ offset := by split <;> omega
    have hcopy : copyPartialString (lineFrom line (if start = 0 then offset else start))
          (offset - if start = 0 then offset else start) =
        copyPartialString (lineFrom line' (if start = 0 then offset else start))
          (offset - if start = 0 then offset else start) :=
      copyPartialString_congr (by omega) hagree
    simp only [hend, addParameter, hcopy, ih (hnote.trans (Nat.le_succ _)), ih (Nat.zero_le _)]

theorem parseOptions_congr (hagree : ∀ i < length, line i = line' i)
    (hle : minimumRequestLength ≤ length) :
    parseOptions alloc line length = parseOptions alloc line' length := by
  rcases Nat.eq_or_lt_of_le hle with heq | hlt
  · -- whatever stands behind a line without options, the loop makes no pass
    have hnone : ∀ memory : ℕ → UInt8, parseOptions alloc memory length =
        pure (minimumRequestLength + 1, []) := by
      intro memory
      rw [parseOptions, ← heq, Nat.sub_self, optionLoop]
      split <;> rfl
    rw [hnone, hnone]
  · rw [parseOptions, parseOptions, hagree _ hlt,
      optionLoop_congr hagree (Nat.succ_ne_zero _) hlt (by omega) (by simp)]

/-- **The result of `parse_request` depends on nothing but the line.** Two buffers that agree on the
first `length` bytes give the same error or the same request, whatever they hold behind them and
however the allocations turn out. -/
theorem parseRequest_congr (alloc : ℕ → Bool) (line line' : ℕ → UInt8) (length : ℕ)
    (hagree : ∀ i < length, line i = line' i) :
    parseRequest alloc (some line) length = parseRequest alloc (some line') length := by
  have hparse : parseLine alloc line length = parseLine alloc line' length := by
    rw [parseLine, parseLine]
    by_cases hshort : length < minimumRequestLength
    · rw [if_pos hshort, if_pos hshort]
    rw [if_neg hshort, if_neg hshort]
    have hle : minimumRequestLength ≤ length := Nat.le_of_not_lt hshort
    have hnine : minimumRequestLength = 9 := rfl
    have hfour : channelIdLength = 4 := rfl
    have hname : commandNameLength = 4 := rfl
    have hsep : (minimumRequestLength < length ∧ line minimumRequestLength ≠ requestPartSeparator ∧
        line minimumRequestLength ≠ optionSeparator) ↔
        minimumRequestLength < length ∧ line' minimumRequestLength ≠ requestPartSeparator ∧
          line' minimumRequestLength ≠ optionSeparator := by
      refine and_congr_right fun hlt => ?_
      rw [hagree _ hlt]
    have hid : stringToChannelId line = stringToChannelId line' :=
      stringToChannelIdLoop_congr le_rfl fun i hi => hagree i (by omega)
    have hloop : ∀ fuel offset, parameterLoop alloc line length fuel offset 0 [] =
        parameterLoop alloc line' length fuel offset 0 [] :=
      fun fuel offset => parameterLoop_congr hagree (Nat.zero_le _)
    rw [hagree channelIdLength (by omega), hid, parseOptions_congr hagree hle,
      copyPartialString_congr (by omega) hagree]
    simp only [hsep, hloop]
  simp only [parseRequest, Int.toNat_natCast, hparse]

end

/-- The rest of a password in the buffer and a `;` behind the line change nothing. -/
theorem parseRequest_congr_shortLine :
    parseRequest (fun _ => true) (some (inMemory (bytes "ab12 CMHD;secret"))) (9 : ℕ) =
      parseRequest (fun _ => true) (some (inMemory (bytes "ab12 CMHD"))) (9 : ℕ) :=
  parseRequest_congr (fun _ => true) (inMemory (bytes "ab12 CMHD;secret"))
    (inMemory (bytes "ab12 CMHD")) 9 (by decide)

/-! ### Repeated names -/

/-- The parser makes `k` allocations and fails with the error, or fails with the first of them that
fails. -/
def ParseM.Rejects {α : Type} (alloc : ℕ → Bool) (p : ParseM α) (k : ℕ) (e : ErrorCode) : Prop :=
  ∀ n, ((∀ i < k, alloc (n + i) = true) → p.run n = .error e) ∧
    ((∃ i < k, alloc (n + i) = false) → p.run n = .error .memoryAllocation)

namespace ParseM.Rejects

variable {alloc : ℕ → Bool} {α β : Type} {e : ErrorCode} {k l : ℕ}

theorem throw : ParseM.Rejects alloc (MonadExcept.throw e : ParseM α) 0 e := by
  intro n
  exact ⟨fun _ => rfl, fun ⟨i, hi, _⟩ => absurd hi (Nat.not_lt_zero i)⟩

theorem bind {p : ParseM α} {f : α → ParseM β} (hp : ParseM.Rejects alloc p k e) :
    ParseM.Rejects alloc (p >>= f) k e := by
  intro n
  rw [StateT.run_bind]
  constructor
  · intro h
    rw [(hp n).1 h]
    rfl
  · intro h
    rw [(hp n).2 h]
    rfl

theorem after {p : ParseM α} {f : α → ParseM β} {a : α} (hp : ParseM.Costs alloc p k a)
    (hf : ParseM.Rejects alloc (f a) l e) : ParseM.Rejects alloc (p >>= f) (k + l) e := by
  intro n
  rw [StateT.run_bind]
  constructor
  · intro h
    rw [(hp n).1 fun i hi => h i (by omega)]
    refine (hf (n + k)).1 fun i hi => ?_
    rw [Nat.add_assoc]
    exact h _ (by omega)
  · rintro ⟨i, hi, h⟩
    by_cases hearly : ∃ i < k, alloc (n + i) = false
    · rw [(hp n).2 hearly]
      rfl
    · push Not at hearly
      have hik : k ≤ i := by
        by_contra hlt
        exact absurd h (hearly i (by omega))
      rw [(hp n).1 fun i hi => by simpa using hearly i hi]
      refine (hf (n + k)).2 ⟨i - k, by omega, ?_⟩
      rwa [show n + k + (i - k) = n + i by omega]

end ParseM.Rejects

section

variable {alloc : ℕ → Bool} {line : ℕ → UInt8} {length : ℕ}

theorem readOption_rejects {option : CommandOption} (ho : option.Written)
    {recorded : List CommandOption} (hrep : Repeats recorded option) :
    ParseM.Rejects alloc (readOption alloc recorded option.text) 0 .requestDuplicateOption := by
  rw [readOption, ho.splitOption]
  simp only [if_pos hrep]
  exact .throw

/-- The loop stops at the first name that the search finds. -/
theorem optionLoop_repeat (alloc : ℕ → Bool) {option : CommandOption}
    {rest recorded : List CommandOption}
    (hwritten : ∀ other ∈ recorded ++ option :: rest, other.Written)
    (hfound : RepeatFound recorded (option :: rest)) {fuel offset final : ℕ}
    (htext : Holds line offset
      (option.text ++ rest.flatMap fun other => optionSeparator :: other.text))
    (hend : OptionsEnd line length (offset + (option.text ++ rest.flatMap fun other =>
      optionSeparator :: other.text).length) final)
    (hoffset : offset ≠ 0) (hfuel : length < fuel + offset) :
    ∃ k, ParseM.Rejects alloc (optionLoop alloc line length fuel ⟨offset, 0, 0, 0, recorded⟩) k
      .requestDuplicateOption := by
  induction rest generalizing option recorded offset fuel with
  | nil =>
    have ho := hwritten option (by simp)
    have hrecorded : ∀ other ∈ recorded, optionEndOfKey ∉ other.name.tail :=
      fun other hother => (hwritten other (List.mem_append_left _ hother)).name_tail
    have hrep : Repeats recorded option := by
      rcases repeatFound_cons.1 hfound with h | ⟨before, other, after, h, -⟩
      · exact h
      · simp at h
    simp only [List.flatMap_nil, List.append_nil] at htext hend
    rw [optionLoop_last htext hoffset ho.text_free hrecorded hend hfuel]
    exact ⟨0, .bind (readOption_rejects ho hrep)⟩
  | cons next rest ih =>
    have ho := hwritten option (by simp)
    have hrecorded : ∀ other ∈ recorded, optionEndOfKey ∉ other.name.tail :=
      fun other hother => (hwritten other (List.mem_append_left _ hother)).name_tail
    simp only [List.flatMap_cons, List.cons_append] at htext hend
    have hlen : (option.text ++ optionSeparator :: (next.text ++ rest.flatMap fun other =>
        optionSeparator :: other.text)).length =
        option.text.length + 1 + (next.text ++ rest.flatMap fun other =>
          optionSeparator :: other.text).length := by simp; omega
    rw [hlen, ← Nat.add_assoc, ← Nat.add_assoc] at hend
    have hle : offset + option.text.length + 1 ≤ length := by rcases hend with h | h <;> omega
    obtain ⟨fuel, rfl⟩ : ∃ k, fuel = option.text.length + 1 + k :=
      ⟨fuel - option.text.length - 1, by omega⟩
    rw [optionLoop_next htext.left hoffset ho.text_free hrecorded (by omega)
      htext.right.head]
    by_cases hrep : Repeats recorded option
    · exact ⟨0, .bind (readOption_rejects ho hrep)⟩
    · have hrest : ∃ k, ParseM.Rejects alloc (optionLoop alloc line length fuel
          ⟨offset + option.text.length + 1, 0, 0, 0, recorded ++ [option]⟩) k
          .requestDuplicateOption :=
        ih (by simpa using hwritten) ((repeatFound_cons.1 hfound).resolve_left hrep)
          htext.right.tail hend (Nat.succ_ne_zero _) (by omega)
      obtain ⟨k, hrest⟩ := hrest
      exact ⟨3 + k, .after (readOption_costs ho hrep) hrest⟩

/-- The line of a client with these parts. -/
structure IsRequestLine (line : ℕ → UInt8) (length : ℕ) (channel command : List UInt8)
    (options : List CommandOption) (parameters : List (List UInt8)) : Prop where
  channel_length : channel.length = channelIdLength
  channel_alphanumeric : ∀ c ∈ channel, IsAlphanumeric c
  command_length : command.length = commandNameLength
  written : ∀ option ∈ options, option.Written
  parameters_free : ∀ t ∈ parameters, ∀ c ∈ t, c ≠ parameterSeparator
  text : Holds line 0 (requestLine channel command options parameters)
  length_eq : length = (requestLine channel command options parameters).length

/-- A line with a name that the search finds is rejected. -/
theorem parseLine_repeat (alloc : ℕ → Bool) {channel command : List UInt8}
    {options : List CommandOption} {parameters : List (List UInt8)}
    (h : IsRequestLine line length channel command options parameters)
    (hfound : RepeatFound [] options) :
    ∃ k, ParseM.Rejects alloc (parseLine alloc line length) k .requestDuplicateOption := by
  obtain ⟨htail, hlen, hchecked⟩ := parseLine_checked alloc h.channel_length h.channel_alphanumeric
    h.command_length h.text h.length_eq
  rw [hchecked]
  match options, hfound with
  | [], ⟨before, option, after, heq, _⟩ => simp at heq
  | option :: rest, hfound =>
    simp only [requestTail, List.flatMap_cons, List.cons_append] at htail hlen
    have hsep := htail.head
    have hsum : (optionSeparator :: (option.text ++ (rest.flatMap fun other =>
        optionSeparator :: other.text) ++ parametersText parameters)).length =
        1 + (option.text ++ rest.flatMap fun other => optionSeparator :: other.text).length +
          (parametersText parameters).length := by simp; omega
    rw [hsum] at hlen
    -- whatever follows the options, it is where they end
    have hend : ∃ final, OptionsEnd line length (minimumRequestLength + 1 + (option.text ++
        rest.flatMap fun other => optionSeparator :: other.text).length) final := by
      cases parameters with
      | nil =>
        simp only [parametersText, List.length_nil] at hlen
        exact ⟨length, .inl ⟨by omega, by omega⟩⟩
      | cons text others =>
        refine ⟨_, .inr ⟨?_, htail.tail.right.head, rfl⟩⟩
        simp only [parametersText, List.length_append, List.length_cons] at hlen ⊢
        omega
    obtain ⟨final, hend⟩ := hend
    have hfuel : length < length + 1 - (minimumRequestLength + 1) + (minimumRequestLength + 1) := by
      rcases hend with hend | hend <;> omega
    obtain ⟨k, hloop⟩ := optionLoop_repeat alloc (h.written : ∀ other ∈ [] ++ option :: rest, _)
      hfound htail.tail.left hend (Nat.succ_ne_zero _) hfuel
    have hparse : ParseM.Rejects alloc (parseOptions alloc line length) k
        .requestDuplicateOption := by
      rw [parseOptions, if_pos hsep]
      exact hloop.bind
    exact ⟨_, .after .allocate (.after .allocate hparse.bind)⟩

/-! ### Syntax of parsed lines -/

theorem ParseM.run_bind_ok {α β : Type} {p : ParseM α} {f : α → ParseM β} {n : ℕ} {r : β × ℕ}
    (h : (p >>= f).run n = .ok r) : ∃ a m, p.run n = .ok (a, m) ∧ (f a).run m = .ok r := by
  rw [StateT.run_bind] at h
  cases hp : p.run n with
  | error e =>
    rw [hp] at h
    cases h
  | ok am =>
    rw [hp] at h
    exact ⟨am.1, am.2, rfl, h⟩

theorem ParseM.run_pure_ok {α : Type} {a : α} {n : ℕ} {r : α × ℕ}
    (h : (pure a : ParseM α).run n = .ok r) : r = (a, n) := by
  injection h with h
  exact h.symm

theorem holds_copy (line : ℕ → UInt8) (start count : ℕ) :
    Holds line start (copyPartialString (lineFrom line start) count) := by
  intro i hi
  simp [copyPartialString, lineFrom]

/-- Every text is some parameters. -/
theorem exists_parameters (text : List UInt8) : ∃ first rest,
    (∀ t ∈ first :: rest, ∀ c ∈ t, c ≠ parameterSeparator) ∧
      text = first ++ rest.flatMap fun t => parameterSeparator :: t := by
  induction text with
  | nil => exact ⟨[], [], by simp, rfl⟩
  | cons c text ih =>
    obtain ⟨first, rest, hfree, rfl⟩ := ih
    by_cases hc : c = parameterSeparator
    · exact ⟨[], first :: rest, by simpa using hfree, by simp [hc]⟩
    · refine ⟨c :: first, rest, ?_, rfl⟩
      rintro t (_ | ⟨_, ht⟩)
      · rintro b (_ | ⟨_, hb⟩)
        · exact hc
        · exact hfree first List.mem_cons_self b hb
      · exact hfree t (List.mem_cons_of_mem _ ht)

theorem readOption_ok {recorded options : List CommandOption} {text : List UInt8} {n m : ℕ}
    (h : (readOption alloc recorded text).run n = .ok (options, m)) :
    ∃ option, splitOption text = some option ∧ options = recorded ++ [option] := by
  cases hsplit : splitOption text with
  | none =>
    rw [readOption, hsplit] at h
    cases h
  | some option =>
    rw [readOption, hsplit] at h
    refine ⟨option, rfl, ?_⟩
    by_cases hrep : Repeats recorded option
    · simp only [if_pos hrep] at h
      cases h
    · simp only [if_neg hrep] at h
      obtain ⟨_, _, -, h⟩ := ParseM.run_bind_ok h
      obtain ⟨_, _, -, h⟩ := ParseM.run_bind_ok h
      obtain ⟨_, _, -, h⟩ := ParseM.run_bind_ok h
      exact congrArg Prod.fst (ParseM.run_pure_ok h)

theorem written_of_splitOption {text : List UInt8} {option : CommandOption}
    (hsplit : splitOption text = some option)
    (hfree : ∀ c ∈ text, c ≠ optionSeparator ∧ c ≠ requestPartSeparator) :
    option.Written ∧ option.text = text := by
  obtain ⟨rfl, hne, hkey⟩ := splitOption_eq_some_iff.1 hsplit
  refine ⟨⟨hne, hkey, fun c hc => hfree c ?_, fun c hc => hfree c ?_⟩, rfl⟩
  · exact List.mem_append_left _ hc
  · exact List.mem_append_right _ (List.mem_cons_of_mem _ hc)

/-- What the option loop has read when it ends without an error. -/
theorem optionLoop_ok {fuel offset : ℕ} {recorded : List CommandOption} {s : OptionScan} {n m : ℕ}
    (hoffset : offset ≠ 0) (hle : offset ≤ length) (hfuel : length < fuel + offset)
    (hrecorded : ∀ other ∈ recorded, optionEndOfKey ∉ other.name.tail)
    (h : (optionLoop alloc line length fuel ⟨offset, 0, 0, 0, recorded⟩).run n = .ok (s, m)) :
    ∃ option rest, (∀ other ∈ option :: rest, other.Written) ∧
      s.options = recorded ++ option :: rest ∧
      Holds line offset (option.text ++ rest.flatMap fun other => optionSeparator :: other.text) ∧
      OptionsEnd line length (offset + (option.text ++ rest.flatMap fun other =>
        optionSeparator :: other.text).length) s.offset := by
  induction hk : length - offset using Nat.strong_induction_on
    generalizing offset fuel recorded n with
  | _ k ih =>
    obtain ⟨text, htext, hfree, hend⟩ := exists_piece line hle
    by_cases hsep : offset + text.length < length ∧ line (offset + text.length) = optionSeparator
    · obtain ⟨hlt, hsep⟩ := hsep
      obtain ⟨fuel, rfl⟩ : ∃ j, fuel = text.length + 1 + j := ⟨fuel - text.length - 1, by omega⟩
      rw [optionLoop_next htext hoffset hfree hrecorded hlt hsep] at h
      obtain ⟨options, m', hread, h⟩ := ParseM.run_bind_ok h
      obtain ⟨option, hsplit, rfl⟩ := readOption_ok hread
      obtain ⟨hwritten, rfl⟩ := written_of_splitOption hsplit hfree
      obtain ⟨next, rest, hrest, hs, hholds, hends⟩ := ih
        (length - (offset + option.text.length + 1)) (by omega) (by omega) (by omega) (by omega)
        (recorded_tails hrecorded hsplit) h rfl
      refine ⟨option, next :: rest, ?_, by simpa using hs, ?_, ?_⟩
      · rintro other (_ | ⟨_, hother⟩)
        · exact hwritten
        · exact hrest other hother
      · exact htext.append (.cons hsep hholds)
      · rwa [List.length_append, List.flatMap_cons, List.cons_append, List.length_cons,
          show offset + (option.text.length + ((next.text ++ rest.flatMap fun other =>
            optionSeparator :: other.text).length + 1)) = offset + option.text.length + 1 +
              (next.text ++ rest.flatMap fun other => optionSeparator :: other.text).length by
            omega]
    · -- the last piece
      have hlast : ∃ final, OptionsEnd line length (offset + text.length) final := by
        rcases hend with hend | ⟨hlt, hspace | hsep'⟩
        · exact ⟨_, .inl ⟨hend, rfl⟩⟩
        · exact ⟨_, .inr ⟨hlt, hspace, rfl⟩⟩
        · exact absurd ⟨hlt, hsep'⟩ hsep
      obtain ⟨final, hlast⟩ := hlast
      rw [optionLoop_last htext hoffset hfree hrecorded hlast hfuel] at h
      obtain ⟨options, m', hread, hrest⟩ := ParseM.run_bind_ok h
      obtain ⟨option, hsplit, rfl⟩ := readOption_ok hread
      obtain ⟨hwritten, rfl⟩ := written_of_splitOption hsplit hfree
      cases ParseM.run_pure_ok hrest
      refine ⟨option, [], by simpa using hwritten, rfl, by simpa using htext, ?_⟩
      simpa using hlast

/-- What follows the options is empty, or a space and parameters. -/
theorem exists_parametersText {e final : ℕ} (hend : OptionsEnd line length e final) :
    ∃ parameters, (∀ t ∈ parameters, ∀ c ∈ t, c ≠ parameterSeparator) ∧
      Holds line e (parametersText parameters) ∧
      e + (parametersText parameters).length = length := by
  rcases hend with ⟨heq, -⟩ | ⟨hlt, hspace, -⟩
  · exact ⟨[], by simp, .nil, heq⟩
  · have hrest := holds_copy line (e + 1) (length - (e + 1))
    have hlen : (copyPartialString (lineFrom line (e + 1)) (length - (e + 1))).length =
        length - (e + 1) := by simp [copyPartialString]
    obtain ⟨first, rest, hfree, htext⟩ :=
      exists_parameters (copyPartialString (lineFrom line (e + 1)) (length - (e + 1)))
    rw [htext] at hrest hlen
    refine ⟨first :: rest, hfree, .cons hspace hrest, ?_⟩
    simp only [parametersText, List.cons_append, List.length_cons]
    omega

/-- What `parse_options` has read when it ends without an error. -/
theorem parseOptions_ok {offset n m : ℕ} {options : List CommandOption}
    (hle : minimumRequestLength ≤ length)
    (hsep : ¬ (minimumRequestLength < length ∧ line minimumRequestLength ≠ requestPartSeparator ∧
      line minimumRequestLength ≠ optionSeparator))
    (h : (parseOptions alloc line length).run n = .ok ((offset, options), m)) :
    ∃ parameters, (∀ option ∈ options, option.Written) ∧
      (∀ t ∈ parameters, ∀ c ∈ t, c ≠ parameterSeparator) ∧
      Holds line minimumRequestLength (requestTail options parameters) ∧
      minimumRequestLength + (requestTail options parameters).length = length := by
  rcases Nat.eq_or_lt_of_le hle with heq | hlt
  · -- the line ends behind the command name
    have hnone : parseOptions alloc line length = pure (minimumRequestLength + 1, []) := by
      rw [parseOptions, ← heq, Nat.sub_self, optionLoop]
      split <;> rfl
    rw [hnone] at h
    cases ParseM.run_pure_ok h
    exact ⟨[], by simp, by simp, .nil, heq⟩
  rw [parseOptions] at h
  by_cases hopt : line minimumRequestLength = optionSeparator
  · rw [if_pos hopt] at h
    obtain ⟨s, m', hloop, hrest⟩ := ParseM.run_bind_ok h
    cases ParseM.run_pure_ok hrest
    obtain ⟨option, rest, hwritten, hs, hholds, hend⟩ := optionLoop_ok (Nat.succ_ne_zero _) hlt
      (by omega) (by simp) hloop
    obtain ⟨parameters, hfree, hparameters, hlen⟩ := exists_parametersText hend
    rw [List.nil_append] at hs
    rw [hs]
    refine ⟨parameters, hwritten, hfree, ?_, ?_⟩
    · exact .append (.cons hopt hholds) (by
        rwa [List.flatMap_cons, List.cons_append, List.length_cons, ← Nat.add_assoc,
          Nat.add_right_comm])
    · rw [requestTail, List.flatMap_cons, List.length_append, List.cons_append, List.length_cons]
      omega
  · rw [if_neg hopt] at h
    cases ParseM.run_pure_ok h
    have hspace : line minimumRequestLength = requestPartSeparator := by
      by_contra hne
      exact hsep ⟨hlt, hne, hopt⟩
    obtain ⟨parameters, hfree, hparameters, hlen⟩ := exists_parametersText
      (.inr ⟨hlt, hspace, rfl⟩ : OptionsEnd line length minimumRequestLength _)
    exact ⟨parameters, by simp, hfree, hparameters, hlen⟩

/-- **A line that is parsed is a request line with the options of the request.** -/
theorem isRequestLine_of_parseLine {request : Request} {n m : ℕ}
    (h : (parseLine alloc line length).run n = .ok (request, m)) :
    ∃ channel command parameters,
      IsRequestLine line length channel command request.options parameters := by
  rw [parseLine] at h
  split_ifs at h with hshort hspace hsep hbad
  · cases h
  · cases h
  · cases h
  · cases h
  obtain ⟨_, _, -, h⟩ := ParseM.run_bind_ok h
  obtain ⟨_, _, -, h⟩ := ParseM.run_bind_ok h
  obtain ⟨⟨offset, options⟩, _, hoptions, h⟩ := ParseM.run_bind_ok h
  obtain ⟨found, _, -, h⟩ := ParseM.run_bind_ok h
  cases ParseM.run_pure_ok h
  obtain ⟨parameters, hwritten, hfree, htail, hlen⟩ :=
    parseOptions_ok (Nat.le_of_not_lt hshort) hsep hoptions
  have hchannel : (copyPartialString (lineFrom line 0) channelIdLength).length =
      channelIdLength := by
    simp [copyPartialString]
  have hcommand : (copyPartialString (lineFrom line (channelIdLength + 1))
      commandNameLength).length = commandNameLength := by
    simp [copyPartialString]
  refine ⟨copyPartialString (lineFrom line 0) channelIdLength,
    copyPartialString (lineFrom line (channelIdLength + 1)) commandNameLength, parameters,
    hchannel, ?_, hcommand, hwritten, hfree, ?_, ?_⟩
  · have hall := stringToChannelId_ne_bad_iff.1 hbad
    intro c hc
    simp only [copyPartialString, List.mem_map, List.mem_range, lineFrom, Nat.zero_add] at hc
    obtain ⟨i, hi, rfl⟩ := hc
    exact hall i hi
  · refine .append (holds_copy line 0 channelIdLength) (.cons ?_ (.append ?_ ?_))
    · rw [hchannel, Nat.zero_add]
      exact not_not.1 hspace
    · rw [hchannel, Nat.zero_add]
      exact holds_copy line _ _
    · rw [hchannel, hcommand, Nat.zero_add]
      exact htail
  · show length = (requestLine _ _ options parameters).length
    simp only [requestLine, List.length_append, List.length_cons, hchannel, hcommand,
      minimumRequestLength] at hlen ⊢
    omega

end

/-- The names of the options are pairwise distinct. -/
def DistinctNames (options : List CommandOption) : Prop :=
  (options.map fun option => cString option.name).Nodup

/-- The line has the syntax of a request with these options. -/
def AsksWith (line : Option (ℕ → UInt8)) (length : ℤ) (options : List CommandOption) : Prop :=
  ∃ memory channel command parameters, ∃ n : ℕ, line = some memory ∧ length = n ∧
    IsRequestLine memory n channel command options parameters

/-- What the uniqueness of option names asks of `parse_request`. -/
structure NamesUnique (line : Option (ℕ → UInt8)) (length : ℤ) : Prop where
  /-- No request has two options of one name. -/
  distinct : ∀ alloc request, parseRequest alloc line length = .ok request →
    DistinctNames request.options
  /-- A repeated name is what a line of the right syntax is rejected for. -/
  rejected : ∀ options, AsksWith line length options → ¬ DistinctNames options →
    parseRequest (fun _ => true) line length = .error .requestDuplicateOption

/-- A parsed line has the syntax of a request with the options of the result. -/
theorem asksWith_of_parseRequest {alloc : ℕ → Bool} {line : Option (ℕ → UInt8)} {length : ℤ}
    {request : Request} (h : parseRequest alloc line length = .ok request) :
    AsksWith line length request.options := by
  cases line with
  | none => cases h
  | some line =>
    rw [parseRequest] at h
    split_ifs at h with hneg
    obtain ⟨n, rfl⟩ := Int.eq_ofNat_of_zero_le (Int.not_lt.1 hneg)
    rw [Int.toNat_natCast, StateT.run'] at h
    cases hrun : (parseLine alloc line n).run 0 with
    | error e =>
      rw [StateT.run] at hrun
      rw [hrun] at h
      cases h
    | ok result =>
      obtain ⟨found, m⟩ := result
      obtain ⟨channel, command, parameters, hline⟩ := isRequestLine_of_parseLine hrun
      rw [StateT.run] at hrun
      rw [hrun] at h
      injection h with h
      subst h
      exact ⟨line, channel, command, parameters, n, rfl, rfl, hline⟩

/-- The line of a request whose names the search lets pass is parsed. -/
theorem parseRequest_of_asksWith {line : Option (ℕ → UInt8)} {length : ℤ}
    {options : List CommandOption} (h : AsksWith line length options)
    (hnew : ¬ RepeatFound [] options) :
    ∃ request, parseRequest (fun _ => true) line length = .ok request ∧
      request.options = options := by
  obtain ⟨memory, channel, command, parameters, n, rfl, rfl, hline⟩ := h
  have hcosts := parseLine_requestLine (fun _ => true) hline.channel_length
    hline.channel_alphanumeric hline.command_length hline.written hnew hline.parameters_free
    hline.text
  rw [← hline.length_eq] at hcosts
  exact ⟨_, (parseRequest_of_costs hcosts).1 fun _ _ => rfl, rfl⟩

/-- The line of a request in which the search finds a name is rejected. -/
theorem parseRequest_repeat {line : Option (ℕ → UInt8)} {length : ℤ}
    {options : List CommandOption} (h : AsksWith line length options)
    (hfound : RepeatFound [] options) (alloc : ℕ → Bool) :
    ∃ e, parseRequest alloc line length = .error e ∧
      ((∀ i, alloc i = true) → e = .requestDuplicateOption) := by
  obtain ⟨memory, channel, command, parameters, n, rfl, rfl, hline⟩ := h
  obtain ⟨k, hrejects⟩ := parseLine_repeat alloc hline hfound
  have hrun := hrejects 0
  simp only [Nat.zero_add] at hrun
  simp only [parseRequest, Int.toNat_natCast]
  rw [if_neg (by omega), StateT.run']
  by_cases hall : ∃ i < k, alloc i = false
  · have herror : parseLine alloc memory n 0 = .error .memoryAllocation := hrun.2 hall
    rw [herror]
    obtain ⟨i, -, hi⟩ := hall
    refine ⟨_, rfl, fun h => ?_⟩
    rw [h i] at hi
    cases hi
  · push Not at hall
    have herror : parseLine alloc memory n 0 = .error .requestDuplicateOption :=
      hrun.1 fun i hi => by simpa using hall i hi
    rw [herror]
    exact ⟨_, rfl, fun _ => rfl⟩

/-- **Option names are kept distinct for exactly the lines that need no search, and those in which
it succeeds by chance.** For every line and length: no request with a repeated option name comes
out, and a repeated name on a line of the right syntax is an error, iff every reading of the line as
a request has distinct names or one that `RepeatFound` describes: a NUL stands in the name, and the
part before it names an option at least two places before. -/
theorem namesUnique_iff (line : Option (ℕ → UInt8)) (length : ℤ) :
    NamesUnique line length ↔ ∀ options, AsksWith line length options →
      DistinctNames options ∨ RepeatFound [] options := by
  constructor
  · intro hunique options hasks
    by_contra hneither
    push Not at hneither
    obtain ⟨request, hok, -⟩ := parseRequest_of_asksWith hasks hneither.2
    rw [hunique.rejected options hasks hneither.1] at hok
    cases hok
  · intro hall
    constructor
    · intro alloc request hok
      have hasks := asksWith_of_parseRequest hok
      refine (hall _ hasks).resolve_right fun hfound => ?_
      obtain ⟨e, herror, -⟩ := parseRequest_repeat hasks hfound alloc
      rw [herror] at hok
      cases hok
    · intro options hasks hrepeated
      obtain ⟨e, herror, hduplicate⟩ :=
        parseRequest_repeat hasks ((hall _ hasks).resolve_left hrepeated) fun _ => true
      rw [herror, hduplicate fun _ => rfl]

/-- Both values of an option that is given twice end up in the request. -/
theorem namesUnique_fails_twice :
    ¬ NamesUnique (some (inMemory (bytes "ab12 CMTR;times=2;times=3 1/a"))) 29 := by
  intro h
  have hok : parseRequest (fun _ => true)
      (some (inMemory (bytes "ab12 CMTR;times=2;times=3 1/a"))) 29 =
      .ok ⟨stringToChannelId (inMemory (bytes "ab12 CMTR;times=2;times=3 1/a")), bytes "CMTR",
        [⟨bytes "times", bytes "2"⟩, ⟨bytes "times", bytes "3"⟩], [bytes "1/a"]⟩ := by
    decide +kernel
  have hdistinct := h.distinct _ _ hok
  revert hdistinct
  unfold DistinctNames
  decide

end XprcServer
