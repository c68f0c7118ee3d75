import XprcServer.Channels.Codec
import XprcServer.Requests.Scan

/-!
# Request lines and what they are parsed to

A client that asks for a command writes the line `CHAN COMD`, one `;key=value` for each option and,
if there are parameters, a space and the parameters joined by `;` (`requestLine`).  The parser reads
it as an automaton over offsets; each lemma of the middle part says what one of its loops makes of
one piece of the text and where it goes on.

* `parseLine_requestLine` : what the parser makes of every such line, and how many allocations that
  takes;
* `parseRequest_requestLine_iff` : the line is parsed to exactly its parts unless it has options and
  no parameters.  The option loop leaves its offset on the end of the line, so that the parameter
  loop finds one more, empty parameter there.
-/

namespace XprcServer

/-! ### Parsers and their allocations -/

/-- The parser makes `k` allocations and has the result `a`, or fails with the first of them that
fails. -/
def ParseM.Costs {α : Type} (alloc : ℕ → Bool) (p : ParseM α) (k : ℕ) (a : α) : Prop :=
  ∀ n, ((∀ i < k, alloc (n + i) = true) → p.run n = .ok (a, n + k)) ∧
    ((∃ i < k, alloc (n + i) = false) → p.run n = .error .memoryAllocation)

namespace ParseM.Costs

variable {alloc : ℕ → Bool} {α β : Type}

theorem pure (a : α) : ParseM.Costs alloc (Pure.pure a) 0 a := by
  intro n
  exact ⟨fun _ => rfl, fun ⟨i, hi, _⟩ => absurd hi (Nat.not_lt_zero i)⟩

theorem allocate : ParseM.Costs alloc (allocate alloc) 1 () := by
  intro n
  constructor
  · intro h
    have h0 : alloc n = true := h 0 (by omega)
    show (if alloc n then Pure.pure () else throw .memoryAllocation : ParseM Unit).run (n + 1) = _
    rw [h0]
    rfl
  · rintro ⟨i, hi, h⟩
    have h0 : alloc n = false := by rwa [show i = 0 by omega] at h
    show (if alloc n then Pure.pure () else throw .memoryAllocation : ParseM Unit).run (n + 1) = _
    rw [h0]
    rfl

/-- Allocations of consecutive parsers add up. -/
theorem bind {p : ParseM α} {f : α → ParseM β} {k l : ℕ} {a : α} {b : β}
    (hp : ParseM.Costs alloc p k a) (hf : ParseM.Costs alloc (f a) l b) :
    ParseM.Costs alloc (p >>= f) (k + l) b := by
  intro n
  rw [StateT.run_bind]
  constructor
  · intro h
    have hfirst := (hp n).1 fun i hi => h i (by omega)
    have hsecond := (hf (n + k)).1 fun i hi => by rw [Nat.add_assoc]; exact h _ (by omega)
    rw [hfirst, show n + (k + l) = n + k + l by omega]
    exact hsecond
  · rintro ⟨i, hi, h⟩
    by_cases hearly : ∃ i < k, alloc (n + i) = false
    · rw [(hp n).2 hearly]
      rfl
    · push Not at hearly
      have hall : ∀ i < k, alloc (n + i) = true := fun i hi => by simpa using hearly i hi
      have hik : k ≤ i := by
        by_contra hlt
        exact absurd h (hearly i (by omega))
      rw [(hp n).1 hall]
      refine (hf (n + k)).2 ⟨i - k, by omega, ?_⟩
      rwa [show n + k + (i - k) = n + i by omega]

theorem allocate_bind {f : Unit → ParseM β} {k : ℕ} {b : β} (hf : ParseM.Costs alloc (f ()) k b) :
    ParseM.Costs alloc (XprcServer.allocate alloc >>= f) (k + 1) b := by
  rw [Nat.add_comm]
  exact allocate.bind hf

theorem bind_pure {p : ParseM α} {f : α → β} {k : ℕ} {a : α} (hp : ParseM.Costs alloc p k a) :
    ParseM.Costs alloc (p >>= fun a => Pure.pure (f a)) k (f a) :=
  hp.bind (f := fun a => Pure.pure (f a)) (l := 0) (.pure (f a))

end ParseM.Costs

/-! ### Options -/

/-- Key and value of an option as they can stand on a line: the key is not empty and only its first
character may be a `=`, and neither has a `;` or a space. -/
structure CommandOption.Written (option : CommandOption) : Prop where
  name_ne_nil : option.name ≠ []
  name_tail : optionEndOfKey ∉ option.name.tail
  name_free : ∀ c ∈ option.name, c ≠ optionSeparator ∧ c ≠ requestPartSeparator
  value_free : ∀ c ∈ option.value, c ≠ optionSeparator ∧ c ≠ requestPartSeparator

/-- The key is not empty and free of `=`, `;` and spaces, the value free of `;` and spaces. -/
structure CommandOption.Sendable (option : CommandOption) : Prop where
  name_ne_nil : option.name ≠ []
  name_free : ∀ c ∈ option.name,
    c ≠ optionEndOfKey ∧ c ≠ optionSeparator ∧ c ≠ requestPartSeparator ∧ c ≠ 0
  value_free : ∀ c ∈ option.value, c ≠ optionSeparator ∧ c ≠ requestPartSeparator ∧ c ≠ 0

theorem CommandOption.Sendable.written {option : CommandOption} (h : option.Sendable) :
    option.Written where
  name_ne_nil := h.name_ne_nil
  name_tail hmem := (h.name_free _ (List.mem_of_mem_tail hmem)).1 rfl
  name_free c hc := ⟨(h.name_free c hc).2.1, (h.name_free c hc).2.2.1⟩
  value_free c hc := ⟨(h.value_free c hc).1, (h.value_free c hc).2.1⟩

theorem CommandOption.Written.splitOption {option : CommandOption} (h : option.Written) :
    splitOption option.text = some option :=
  splitOption_eq_some_iff.2 ⟨rfl, h.name_ne_nil, h.name_tail⟩

theorem CommandOption.Written.text_free {option : CommandOption} (h : option.Written) :
    ∀ c ∈ option.text, c ≠ optionSeparator ∧ c ≠ requestPartSeparator := by
  intro c hc
  rcases List.mem_append.1 hc with hc | _ | ⟨_, hc⟩
  · exact h.name_free c hc
  · decide
  · exact h.value_free c hc

/-- The search of `add_option` finds one of the names, which are added to the recorded ones one
after the other. -/
def RepeatFound (recorded options : List CommandOption) : Prop :=
  ∃ before option after, options = before ++ option :: after ∧ Repeats (recorded ++ before) option

theorem repeatFound_cons {recorded options : List CommandOption} {option : CommandOption} :
    RepeatFound recorded (option :: options) ↔
      Repeats recorded option ∨ RepeatFound (recorded ++ [option]) options := by
  constructor
  · rintro ⟨_ | ⟨first, before⟩, other, after, heq, hrep⟩
    · injection heq with h1 h2
      subst h1
      exact .inl (by simpa using hrep)
    · injection heq with h1 h2
      subst h1
      exact .inr ⟨before, other, after, h2, by simpa using hrep⟩
  · rintro (hrep | ⟨before, other, after, rfl, hrep⟩)
    · exact ⟨[], option, options, rfl, by simpa using hrep⟩
    · exact ⟨option :: before, other, after, rfl, by simpa using hrep⟩

theorem not_repeatFound_of_sendable {recorded options : List CommandOption}
    (h : ∀ option ∈ options, option.Sendable) : ¬ RepeatFound recorded options := by
  rintro ⟨before, option, after, rfl, hzero, -⟩
  exact ((h option (by simp)).name_free 0 hzero).2.2.2 rfl

section

variable {alloc : ℕ → Bool} {line : ℕ → UInt8} {length : ℕ}

/-- An option that is not found among the recorded ones is added to them. -/
theorem readOption_costs {option : CommandOption} (ho : option.Written)
    {recorded : List CommandOption} (hnew : ¬ Repeats recorded option) :
    ParseM.Costs alloc (readOption alloc recorded option.text) 3 (recorded ++ [option]) := by
  rw [readOption, ho.splitOption]
  simp only [if_neg hnew]
  exact .allocate_bind (.allocate_bind (.allocate_bind (.pure _)))

theorem optionLoop_options {option : CommandOption} {rest recorded : List CommandOption}
    (hwritten : ∀ other ∈ recorded ++ option :: rest, other.Written)
    (hnew : ¬ RepeatFound recorded (option :: rest)) {fuel offset final : ℕ}
    (htext : Holds line offset
      (option.text ++ rest.flatMap fun other => optionSeparator :: other.text))
    (hend : OptionsEnd line length (offset + (option.text ++ rest.flatMap fun other =>
      optionSeparator :: other.text).length) final)
    (hoffset : offset ≠ 0) (hfuel : length < fuel + offset) :
    ParseM.Costs alloc (optionLoop alloc line length fuel ⟨offset, 0, 0, 0, recorded⟩)
      (3 * (rest.length + 1)) ⟨final, 0, 0, 0, recorded ++ option :: rest⟩ := by
  induction rest generalizing option recorded offset fuel with
  | nil =>
    have ho := hwritten option (by simp)
    have hrecorded : ∀ other ∈ recorded, optionEndOfKey ∉ other.name.tail :=
      fun other hother => (hwritten other (List.mem_append_left _ hother)).name_tail
    rw [repeatFound_cons, not_or] at hnew
    simp only [List.flatMap_nil, List.append_nil] at htext hend
    rw [optionLoop_last htext hoffset ho.text_free hrecorded hend hfuel]
    exact (readOption_costs ho hnew.1).bind_pure
  | cons next rest ih =>
    have ho := hwritten option (by simp)
    have hrecorded : ∀ other ∈ recorded, optionEndOfKey ∉ other.name.tail :=
      fun other hother => (hwritten other (List.mem_append_left _ hother)).name_tail
    rw [repeatFound_cons, not_or] at hnew
    simp only [List.flatMap_cons, List.cons_append] at htext hend
    have hlen : (option.text ++ optionSeparator :: (next.text ++ rest.flatMap fun other =>
        optionSeparator :: other.text)).length =
        option.text.length + 1 + (next.text ++ rest.flatMap fun other =>
          optionSeparator :: other.text).length := by simp; omega
    rw [hlen, ← Nat.add_assoc, ← Nat.add_assoc] at hend
    have hle : offset + option.text.length + 1 ≤ length := by rcases hend with h | h <;> omega
    obtain ⟨fuel, rfl⟩ : ∃ k, fuel = option.text.length + 1 + k :=
      ⟨fuel - option.text.length - 1, by omega⟩
    rw [optionLoop_next htext.left hoffset ho.text_free hrecorded (by omega)
      htext.right.head]
    have hrest : ParseM.Costs alloc
        (optionLoop alloc line length fuel
          ⟨offset + option.text.length + 1, 0, 0, 0, recorded ++ [option]⟩)
        (3 * (rest.length + 1)) ⟨final, 0, 0, 0, (recorded ++ [option]) ++ next :: rest⟩ :=
      ih (by simpa using hwritten) hnew.2 htext.right.tail hend (by omega) (by omega)
    rw [show 3 * ((next :: rest).length + 1) = 3 + 3 * (rest.length + 1) by simp; omega]
    rw [List.append_assoc] at hrest
    exact .bind (readOption_costs ho hnew.1) hrest

end

/-! ### Parameters -/

section

variable {alloc : ℕ → Bool} {line : ℕ → UInt8} {length : ℕ}

/-- The loop reads the rest of a parameter whose start is noted. -/
theorem parameterLoop_text {text : List UInt8} {fuel offset start : ℕ}
    {parameters : List (List UInt8)} (htext : Holds line offset text)
    (hle : offset + text.length ≤ length) (hstart : start ≠ 0)
    (hfree : ∀ c ∈ text, c ≠ parameterSeparator) :
    parameterLoop alloc line length (text.length + fuel) offset start parameters =
      parameterLoop alloc line length fuel (offset + text.length) start parameters := by
  induction text generalizing offset with
  | nil => simp
  | cons c text ih =>
    have hc := hfree c List.mem_cons_self
    simp only [List.length_cons] at hle
    have hne : offset ≠ length := by omega
    rw [show (c :: text).length + fuel = text.length + fuel + 1 by simp; omega, parameterLoop,
      if_neg (by omega)]
    simp only [htext.head, beq_eq_false_iff_ne.2 hne, beq_eq_false_iff_ne.2 hc, Bool.or_self,
      Bool.false_eq_true, if_false, hstart]
    rw [ih htext.tail (by omega) fun c' hc' => hfree c' (List.mem_cons_of_mem _ hc')]
    rw [List.length_cons, show offset + 1 + text.length = offset + (text.length + 1) by omega]

/-- The loop reads a whole parameter, up to the character that ends it.  The start of an empty one
is not noted yet. -/
theorem parameterLoop_parameter {text : List UInt8} {fuel offset : ℕ}
    {parameters : List (List UInt8)} (htext : Holds line offset text)
    (hle : offset + text.length ≤ length) (hoffset : offset ≠ 0)
    (hfree : ∀ c ∈ text, c ≠ parameterSeparator) :
    parameterLoop alloc line length (text.length + fuel) offset 0 parameters =
      parameterLoop alloc line length fuel (offset + text.length) (if text = [] then 0 else offset)
        parameters := by
  cases text with
  | nil => simp
  | cons c text =>
    have hc := hfree c List.mem_cons_self
    simp only [List.length_cons] at hle
    have hne : offset ≠ length := by omega
    rw [show (c :: text).length + fuel = text.length + fuel + 1 by simp; omega, parameterLoop,
      if_neg (by omega)]
    simp only [htext.head, beq_eq_false_iff_ne.2 hne, beq_eq_false_iff_ne.2 hc, Bool.or_self,
      Bool.false_eq_true, if_false, if_true]
    rw [parameterLoop_text htext.tail (by omega) hoffset
      fun c' hc' => hfree c' (List.mem_cons_of_mem _ hc')]
    rw [if_neg (List.cons_ne_nil _ _), List.length_cons,
      show offset + 1 + text.length = offset + (text.length + 1) by omega]

theorem addParameter_costs {text : List UInt8} {offset : ℕ} (parameters : List (List UInt8))
    (htext : Holds line offset text) :
    ParseM.Costs alloc (addParameter alloc line parameters offset text.length) 2
      (parameters ++ [text]) := by
  rw [addParameter, htext.copy]
  exact .allocate_bind (.allocate_bind (.pure _))

/-- The start of a parameter is known at its end, be it empty or not. -/
theorem parameterStart {text : List UInt8} {offset e : ℕ} (hoffset : offset ≠ 0)
    (he : offset + text.length = e) :
    (if (if text = [] then 0 else offset) = 0 then e else if text = [] then 0 else offset) =
      offset := by
  by_cases ht : text = []
  · simp [ht, ← he]
  · simp [ht, hoffset]

theorem parameterLoop_parameters {text : List UInt8} {rest parameters : List (List UInt8)}
    {fuel offset : ℕ} (hfree : ∀ t ∈ text :: rest, ∀ c ∈ t, c ≠ parameterSeparator)
    (htext : Holds line offset (text ++ rest.flatMap fun t => parameterSeparator :: t))
    (hend : offset + (text ++ rest.flatMap fun t => parameterSeparator :: t).length = length)
    (hoffset : offset ≠ 0) (hfuel : length < fuel + offset) :
    ParseM.Costs alloc (parameterLoop alloc line length fuel offset 0 parameters)
      (2 * (rest.length + 1)) (parameters ++ text :: rest) := by
  induction rest generalizing text parameters offset fuel with
  | nil =>
    simp only [List.flatMap_nil, List.append_nil] at htext hend
    obtain ⟨fuel, rfl⟩ : ∃ k, fuel = text.length + (k + 1) := ⟨fuel - text.length - 1, by omega⟩
    rw [parameterLoop_parameter htext (by omega) hoffset (hfree text List.mem_cons_self),
      parameterLoop, if_neg (by omega)]
    simp only [hend, beq_self_eq_true, Bool.true_or, if_true, parameterStart hoffset hend]
    rw [show length - offset = text.length by omega]
    exact (addParameter_costs parameters htext).bind_pure
  | cons next rest ih =>
    simp only [List.flatMap_cons, List.cons_append] at htext hend
    have hlen : (text ++ parameterSeparator :: (next ++ rest.flatMap fun t =>
        parameterSeparator :: t)).length = text.length + 1 + (next ++ rest.flatMap fun t =>
          parameterSeparator :: t).length := by simp; omega
    rw [hlen] at hend
    obtain ⟨fuel, rfl⟩ : ∃ k, fuel = text.length + (k + 1) := ⟨fuel - text.length - 1, by omega⟩
    have hne : offset + text.length ≠ length := by omega
    rw [parameterLoop_parameter htext.left (by omega) hoffset (hfree text List.mem_cons_self),
      parameterLoop, if_neg (by omega)]
    simp only [htext.right.head, beq_eq_false_iff_ne.2 hne, beq_self_eq_true, Bool.or_true, if_true,
      Bool.false_eq_true, if_false, parameterStart hoffset rfl]
    rw [show offset + text.length - offset = text.length by omega]
    have hrest : ParseM.Costs alloc
        (parameterLoop alloc line length fuel (offset + text.length + 1) 0 (parameters ++ [text]))
        (2 * (rest.length + 1)) ((parameters ++ [text]) ++ next :: rest) :=
      ih (fun t ht => hfree t (List.mem_cons_of_mem _ ht)) htext.right.tail (by omega) (by omega)
      (by omega)
    rw [List.append_assoc] at hrest
    rw [show 2 * ((next :: rest).length + 1) = 2 + 2 * (rest.length + 1) by simp; omega]
    exact .bind (addParameter_costs parameters htext.left) hrest

end

/-! ### Request lines -/

/-- The parameters of a line, behind a space if there are any. -/
def parametersText : List (List UInt8) → List UInt8
  | [] => []
  | text :: rest => requestPartSeparator :: text ++ rest.flatMap fun t => parameterSeparator :: t

/-- The text of options and parameters behind the command name. -/
def requestTail (options : List CommandOption) (parameters : List (List UInt8)) : List UInt8 :=
  (options.flatMap fun option => optionSeparator :: option.text) ++ parametersText parameters

/-- The line by which a client asks for a command. -/
def requestLine (channel command : List UInt8) (options : List CommandOption)
    (parameters : List (List UInt8)) : List UInt8 :=
  channel ++ requestPartSeparator :: (command ++ requestTail options parameters)

/-- The parameters the parser finds: one empty parameter too many behind options at the end of the
line. -/
def parsedParameters (options : List CommandOption) (parameters : List (List UInt8)) :
    List (List UInt8) :=
  if options ≠ [] ∧ parameters = [] then [[]] else parameters

section

variable {alloc : ℕ → Bool} {line : ℕ → UInt8} {options : List CommandOption}
  {parameters : List (List UInt8)}

/-- Parameters behind a space are read to the end of the line. -/
theorem parametersText_costs (alloc : ℕ → Bool) {offset length : ℕ} {text : List UInt8}
    {rest : List (List UInt8)} (hfree : ∀ t ∈ text :: rest, ∀ c ∈ t, c ≠ parameterSeparator)
    (htext : Holds line offset (parametersText (text :: rest)))
    (hlength : offset + (parametersText (text :: rest)).length = length) :
    line offset = requestPartSeparator ∧ offset < length ∧
      ParseM.Costs alloc (parameterLoop alloc line length (length + 1 - (offset + 1))
        (offset + 1) 0 []) (2 * (text :: rest).length) (text :: rest) := by
  have hlen : (parametersText (text :: rest)).length =
      1 + (text ++ rest.flatMap fun t => parameterSeparator :: t).length := by
    simp [parametersText]; omega
  refine ⟨htext.head, by omega, ?_⟩
  exact parameterLoop_parameters hfree htext.tail (by omega) (by omega) (by omega)

/-- The parser reads the options, and then the parameters from the offset the options leave. -/
theorem requestTail_costs (alloc : ℕ → Bool) (hoptions : ∀ option ∈ options, option.Written)
    (hnew : ¬ RepeatFound [] options)
    (hparameters : ∀ t ∈ parameters, ∀ c ∈ t, c ≠ parameterSeparator)
    (htext : Holds line minimumRequestLength (requestTail options parameters)) {length : ℕ}
    (hlength : minimumRequestLength + (requestTail options parameters).length = length) :
    ∃ offset, ParseM.Costs alloc (parseOptions alloc line length) (3 * options.length)
        (offset, options) ∧
      ParseM.Costs alloc (parameterLoop alloc line length (length + 1 - offset) offset 0 [])
        (2 * (parsedParameters options parameters).length)
        (parsedParameters options parameters) := by
  cases options with
  | nil =>
    simp only [requestTail, List.flatMap_nil, List.nil_append] at htext hlength
    refine ⟨minimumRequestLength + 1, ?_, ?_⟩
    · -- what is read as the start of options is either the space or memory behind the line
      by_cases hsep : line minimumRequestLength = optionSeparator
      · have hend : length + 1 - (minimumRequestLength + 1) = 0 := by
          cases parameters with
          | nil => simp only [parametersText, List.length_nil] at hlength; omega
          | cons text rest =>
            rw [(parametersText_costs alloc hparameters htext hlength).1] at hsep
            exact absurd hsep (by decide)
        rw [parseOptions, if_pos hsep, hend]
        exact .pure _
      · rw [parseOptions, if_neg hsep]
        exact .pure _
    · cases parameters with
      | nil =>
        simp only [parametersText, List.length_nil, Nat.add_zero] at hlength
        rw [← hlength, Nat.sub_self]
        exact .pure _
      | cons text rest => exact (parametersText_costs alloc hparameters htext hlength).2.2
  | cons option rest =>
    simp only [requestTail, List.flatMap_cons, List.cons_append] at htext hlength
    have hsep := htext.head
    have hlen : ∀ l : List UInt8, (optionSeparator :: (option.text ++
        (rest.flatMap fun other => optionSeparator :: other.text) ++ l)).length =
        1 + (option.text ++ rest.flatMap fun other => optionSeparator :: other.text).length +
          l.length := by intro l; simp; omega
    rw [hlen] at hlength
    have hparse : ∀ final, OptionsEnd line length (minimumRequestLength + 1 + (option.text ++
        rest.flatMap fun other => optionSeparator :: other.text).length) final →
        ParseM.Costs alloc (parseOptions alloc line length) (3 * (option :: rest).length)
          (final, option :: rest) := by
      intro final hend
      rw [parseOptions, if_pos hsep]
      exact (optionLoop_options (hoptions : ∀ other ∈ [] ++ option :: rest, _) hnew htext.tail.left
        hend (by decide)
        (by simp only [minimumRequestLength, channelIdLength, commandNameLength]; omega)).bind_pure
    cases parameters with
    | nil =>
      -- the offset stays on the end of the line, where one more parameter is found
      simp only [parametersText, List.length_nil, Nat.add_zero] at hlength
      refine ⟨length, hparse length (.inl ⟨by omega, by omega⟩), ?_⟩
      rw [show length + 1 - length = 1 by omega]
      have hone : ParseM.Costs alloc (parameterLoop alloc line length 1 length 0 [])
          (2 * (([] : List (List UInt8)).length + 1)) ([] ++ [] :: []) :=
        parameterLoop_parameters (by simp) .nil (by simp)
          (by simp only [minimumRequestLength] at hlength; omega) (by omega)
      exact hone
    | cons text others =>
      have hrest := parametersText_costs alloc hparameters htext.tail.right
        (show _ = length by omega)
      refine ⟨_, hparse _ (.inr ⟨hrest.2.1, hrest.1, rfl⟩), ?_⟩
      simpa [parsedParameters] using hrest.2.2

variable {channel command : List UInt8}

theorem accepted_of_holds (hchannel : channel.length = channelIdLength)
    (halnum : ∀ c ∈ channel, IsAlphanumeric c) (h : Holds line 0 channel) :
    stringToChannelId line ≠ badChannelId := by
  refine stringToChannelId_ne_bad_iff.2 fun i hi => ?_
  have hi' : i < channel.length := by rw [hchannel]; exact hi
  have hc := h i hi'
  rw [Nat.zero_add] at hc
  rw [hc]
  exact halnum _ (List.getElem_mem hi')

theorem nameOf_of_holds (hchannel : channel.length = channelIdLength) (h : Holds line 0 channel) :
    nameOf line = channel := by
  have hfrom : lineFrom line 0 = line := funext fun i => by rw [lineFrom, Nat.zero_add]
  have hcopy := h.copy
  rwa [hchannel, hfrom] at hcopy

/-- The line of a client passes the checks in front of the loops. -/
theorem parseLine_checked (alloc : ℕ → Bool) (hchannel : channel.length = channelIdLength)
    (halnum : ∀ c ∈ channel, IsAlphanumeric c) (hcommand : command.length = commandNameLength)
    (htext : Holds line 0 (requestLine channel command options parameters)) {length : ℕ}
    (hlength : length = (requestLine channel command options parameters).length) :
    Holds line minimumRequestLength (requestTail options parameters) ∧
      minimumRequestLength + (requestTail options parameters).length = length ∧
      parseLine alloc line length = do
        allocate alloc
        allocate alloc
        let (offset, options) ← parseOptions alloc line length
        let parameters ← parameterLoop alloc line length (length + 1 - offset) offset 0 []
        return ⟨stringToChannelId line, command, options, parameters⟩ := by
  have hlen : minimumRequestLength + (requestTail options parameters).length = length := by
    simp only [hlength, requestLine, List.length_append, List.length_cons, hchannel, hcommand,
      minimumRequestLength]
    omega
  have hspace := htext.right.head
  have hname := htext.right.tail.left.copy
  have htail := htext.right.tail.right
  rw [hchannel, Nat.zero_add] at hspace hname htail
  rw [hcommand] at hname htail
  have haccepted := accepted_of_holds hchannel halnum htext.left
  -- behind the command name the line ends or goes on with a separator
  have hsep : ¬ (minimumRequestLength < length ∧
      line minimumRequestLength ≠ requestPartSeparator ∧
      line minimumRequestLength ≠ optionSeparator) := by
    rintro ⟨hlt, h1, h2⟩
    cases options with
    | cons option rest => exact h2 htail.head
    | nil =>
      cases parameters with
      | nil => simp [← hlen, requestTail, parametersText] at hlt
      | cons text rest => exact h1 htail.head
  refine ⟨htail, hlen, ?_⟩
  rw [parseLine, if_neg (by omega), if_neg (fun h => h hspace), if_neg hsep,
    if_neg haccepted, hname]

/-- **What `parse_request` makes of the line of a client**, and the allocations it makes. -/
theorem parseLine_requestLine (alloc : ℕ → Bool) (hchannel : channel.length = channelIdLength)
    (halnum : ∀ c ∈ channel, IsAlphanumeric c) (hcommand : command.length = commandNameLength)
    (hoptions : ∀ option ∈ options, option.Written) (hnew : ¬ RepeatFound [] options)
    (hparameters : ∀ t ∈ parameters, ∀ c ∈ t, c ≠ parameterSeparator)
    (htext : Holds line 0 (requestLine channel command options parameters)) :
    ParseM.Costs alloc
      (parseLine alloc line (requestLine channel command options parameters).length)
      (2 + 3 * options.length + 2 * (parsedParameters options parameters).length)
      ⟨stringToChannelId line, command, options, parsedParameters options parameters⟩ := by
  obtain ⟨htail, hlen, hchecked⟩ := parseLine_checked alloc hchannel halnum hcommand htext rfl
  obtain ⟨offset, hparse, hloop⟩ := requestTail_costs alloc hoptions hnew hparameters htail hlen
  rw [hchecked]
  rw [show 2 + 3 * options.length + 2 * (parsedParameters options parameters).length =
    3 * options.length + 2 * (parsedParameters options parameters).length + 1 + 1 by omega]
  exact .allocate_bind (.allocate_bind (.bind hparse hloop.bind_pure))

/-- The result of the whole function, from what its parser costs. -/
theorem parseRequest_of_costs {length k : ℕ} {request : Request}
    (h : ParseM.Costs alloc (parseLine alloc line length) k request) :
    ((∀ i < k, alloc i = true) → parseRequest alloc (some line) length = .ok request) ∧
      ((∃ i < k, alloc i = false) →
        parseRequest alloc (some line) length = .error .memoryAllocation) := by
  have hparse : parseRequest alloc (some line) length =
      (parseLine alloc line length).run' 0 := by
    simp only [parseRequest, Int.toNat_natCast]
    rw [if_neg (by omega)]
  have hrun := h 0
  simp only [Nat.zero_add] at hrun
  rw [hparse, StateT.run']
  constructor
  · intro hall
    have : parseLine alloc line length 0 = .ok (request, k) := hrun.1 hall
    rw [this]
    rfl
  · intro hfail
    have : parseLine alloc line length 0 = .error .memoryAllocation := hrun.2 hfail
    rw [this]
    rfl

theorem parsedParameters_eq_iff :
    parsedParameters options parameters = parameters ↔ options = [] ∨ parameters ≠ [] := by
  unfold parsedParameters
  by_cases hp : parameters = []
  · by_cases ho : options = [] <;> simp [hp, ho]
  · simp [hp]

/-- **A client's line is parsed to exactly its parts unless it has options and no parameters.**
For every name of four characters `[a-zA-Z0-9]`, command name, options and parameters that can be
written on a line, and whatever memory holds behind the line: `parse_request` succeeds with that
channel, command name, option list and parameter list iff there are no options or there are
parameters, and none of the allocations for them fails. -/
theorem parseRequest_requestLine_iff (alloc : ℕ → Bool) (line : ℕ → UInt8)
    (channel command : List UInt8) (options : List CommandOption) (parameters : List (List UInt8))
    (hchannel : channel.length = channelIdLength) (halnum : ∀ c ∈ channel, IsAlphanumeric c)
    (hcommand : command.length = commandNameLength)
    (hoptions : ∀ option ∈ options, option.Sendable)
    (hparameters : ∀ t ∈ parameters, ∀ c ∈ t, c ≠ parameterSeparator)
    (htext : Holds line 0 (requestLine channel command options parameters)) :
    (∃ id, channelIdToString id = channel ∧ id = stringToChannelId line ∧
        parseRequest alloc (some line) (requestLine channel command options parameters).length =
          .ok ⟨id, command, options, parameters⟩) ↔
      (options = [] ∨ parameters ≠ []) ∧
        ∀ i < 2 + 3 * options.length + 2 * parameters.length, alloc i = true := by
  obtain ⟨hok, hfail⟩ := parseRequest_of_costs (parseLine_requestLine alloc hchannel
    halnum hcommand (fun option ho => (hoptions option ho).written)
    (not_repeatFound_of_sendable hoptions) hparameters htext)
  constructor
  · rintro ⟨id, -, rfl, hparse⟩
    have hall : ∀ i < 2 + 3 * options.length + 2 * (parsedParameters options parameters).length,
        alloc i = true := by
      by_contra hnot
      push Not at hnot
      obtain ⟨i, hi, hne⟩ := hnot
      rw [hfail ⟨i, hi, by simpa using hne⟩] at hparse
      cases hparse
    rw [hok hall] at hparse
    have hparams : parsedParameters options parameters = parameters := by
      injection hparse with hparse
      exact congrArg Request.parameters hparse
    rw [hparams] at hall
    exact ⟨parsedParameters_eq_iff.1 hparams, hall⟩
  · rintro ⟨hshape, hall⟩
    have hparams := parsedParameters_eq_iff.2 hshape
    rw [hparams] at hok
    have haccepted := accepted_of_holds hchannel halnum htext.left
    have hid := channelIdToString_stringToChannelId haccepted
    rw [nameOf_of_holds hchannel htext.left] at hid
    exact ⟨_, hid, rfl, hok hall⟩

end

/-- A text with zeroed memory behind it. -/
def inMemory (text : List UInt8) : ℕ → UInt8 := fun i => text.getD i 0

theorem holds_inMemory (text : List UInt8) : Holds (inMemory text) 0 text := by
  intro i hi
  simp [inMemory, hi]

theorem parseRequest_requestLine_frequency :
    (∃ id, channelIdToString id = bytes "ab12" ∧
        id = stringToChannelId (inMemory (bytes "ab12 DRQV;freq=20 a;b")) ∧
        parseRequest (fun _ => true) (some (inMemory (bytes "ab12 DRQV;freq=20 a;b")))
          (requestLine (bytes "ab12") (bytes "DRQV") [⟨bytes "freq", bytes "20"⟩]
            [bytes "a", bytes "b"]).length =
          .ok ⟨id, bytes "DRQV", [⟨bytes "freq", bytes "20"⟩], [bytes "a", bytes "b"]⟩) ↔
      ([⟨bytes "freq", bytes "20"⟩] = ([] : List CommandOption) ∨
          [bytes "a", bytes "b"] ≠ ([] : List (List UInt8))) ∧
        ∀ i < 9, (fun _ : ℕ => true) i = true :=
  parseRequest_requestLine_iff (fun _ => true) (inMemory (bytes "ab12 DRQV;freq=20 a;b"))
    (bytes "ab12") (bytes "DRQV") [⟨bytes "freq", bytes "20"⟩] [bytes "a", bytes "b"]
    (by decide) (by decide +kernel) (by decide +kernel)
    (fun option h => by
      rw [List.mem_singleton.1 h]
      exact ⟨by decide, by decide +kernel, by decide +kernel⟩)
    (by decide +kernel) (holds_inMemory _)

theorem parse_options_only :
    parseRequest (fun _ => true) (some (inMemory (bytes "ab12 CMHD;a=b"))) 13 =
      .ok ⟨stringToChannelId (inMemory (bytes "ab12 CMHD;a=b")), bytes "CMHD",
        [⟨bytes "a", bytes "b"⟩], [[]]⟩ := by
  decide

/-- The line `ab12 CMHD;a=b` has no parameters, but it is not parsed to a request without any. -/
theorem parseRequest_adds_parameter :
    requestLine (bytes "ab12") (bytes "CMHD") [⟨bytes "a", bytes "b"⟩] [] =
        bytes "ab12 CMHD;a=b" ∧
      ∀ id, parseRequest (fun _ => true) (some (inMemory (bytes "ab12 CMHD;a=b"))) 13 ≠
        .ok ⟨id, bytes "CMHD", [⟨bytes "a", bytes "b"⟩], []⟩ := by
  refine ⟨by decide, fun id h => ?_⟩
  rw [parse_options_only] at h
  injection h with h
  exact List.cons_ne_nil _ _ (congrArg Request.parameters h)

end XprcServer
