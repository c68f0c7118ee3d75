import XprcServer.Commands.Drqv

/-!
# Samples and lines of DRQV

A DRQV command that was asked for `n` repetitions should send one line of data for each of the first
`n` flight loops that are due, and close its channel with the last of them.

Flight loops and post-processing run in any order: post-processing may run after one flight loop or
after several.  `step_account` says what a step does to the lines that were received and the one
that waits to be sent.  A sample is lost if the next one is taken before it was sent, and also if it
is taken at session time 0, which is read as "no sample".  A lost sample has been counted as a
repetition.

* `drqv_lines` : as long as no sample is lost, the lines received and the one that waits are those
  of the due flight loops, in order; and when `n` flight loops have been due, all `n` lines are
  received iff no sample was lost.
-/

namespace XprcServer

/-! ### What a channel receives -/

namespace CommandMessage

/-- A message that closes the channel. -/
def closes (m : CommandMessage) : Bool := m.call = .finish || m.call = .error

/-- A line of data. -/
def isData (m : CommandMessage) : Bool := m.text.isSome && (m.call = .continues || m.call = .finish)

/-- The messages that a channel receives: none after one that closes it. -/
def received : List CommandMessage → List CommandMessage
  | [] => []
  | m :: rest => if m.closes then [m] else m :: received rest

/-- One of the messages has closed the channel. -/
def isClosed (sent : List CommandMessage) : Bool := sent.any closes

/-- The lines of data that a channel receives. -/
def dataLines (sent : List CommandMessage) : List CommandMessage := (received sent).filter isData

variable {sent : List CommandMessage} {m : CommandMessage}

theorem received_append (sent rest : List CommandMessage) :
    received (sent ++ rest) = received sent ++ if isClosed sent then [] else received rest := by
  induction sent with
  | nil => simp [received, isClosed]
  | cons m sent ih =>
    by_cases hcloses : m.closes
    · simp [received, isClosed, hcloses]
    · simp [received, isClosed, hcloses, ih]

theorem received_single (m : CommandMessage) : received [m] = [m] := by
  unfold received
  split_ifs <;> rfl

/-- Another message is received unless the channel is closed. -/
theorem dataLines_concat (sent : List CommandMessage) (m : CommandMessage) :
    dataLines (sent ++ [m]) =
      dataLines sent ++ if isClosed sent = false ∧ m.isData = true then [m] else [] := by
  unfold dataLines
  rw [received_append, List.filter_append, received_single]
  cases isClosed sent <;> cases hdata : m.isData <;> simp [hdata]

theorem isClosed_concat (sent : List CommandMessage) (m : CommandMessage) :
    isClosed (sent ++ [m]) = (isClosed sent || m.closes) := by
  simp [isClosed]

end CommandMessage

open CommandMessage

/-- What happens to a DRQV command: its task runs in a flight loop or in post-processing. -/
inductive DrqvEvent (V : Type) where
  | flightloop (now : ℤ) (xp : XpDatarefs V)
  | post (lock submitted : ErrorCode) (env : EncodeEnv V)

/-- All values can be encoded, as `text`. -/
structure EncodeEnv.Encodes {V : Type} (env : EncodeEnv V)
    (text : BitVec 32 → Option V → List UInt8) : Prop where
  createList : env.createList = true
  copySeparator : ∀ n, env.copySeparator n = true
  appendSeparator : ∀ n, env.appendSeparator n = true
  encode : ∀ type value, env.encode type value = some (text type value)
  appendValue : ∀ n, env.appendValue n = true
  concatenate : env.concatenate = true

/-- The datarefs with these names and types exist, and they can be read. -/
structure XpDatarefs.Serves {V : Type} (xp : XpDatarefs V)
    (wanted : List (List UInt8 × BitVec 32)) :
    Prop where
  find : ∀ d ∈ wanted, ∃ ref, xp.find d.1 = some ref ∧ xp.types ref &&& d.2 ≠ 0
  getArray : ∀ d ∈ wanted, ∀ ref, ∃ value, xp.getArray d.2 ref = .ok value

/-- The datarefs exist, and encoding and sending succeed. -/
def DrqvEvent.Succeeds {V : Type} (text : BitVec 32 → Option V → List UInt8)
    (wanted : List (List UInt8 × BitVec 32)) : DrqvEvent V → Prop
  | flightloop _ xp => xp.Serves wanted
  | post _ submitted env => submitted = .none ∧ env.Encodes text

namespace Drqv

/-- The values of a flight loop. -/
structure Sample (V : Type) where
  time : ℤ
  datarefs : List (DrqvDataref V)

section

variable {V : Type} (t : ℕ)

/-- `drqv_process`, which is called while the task `t` is scheduled. -/
def step (s : State V) (event : DrqvEvent V) : State V :=
  if t ∈ s.port.queues s.command.phase then
    match event with
    | .flightloop now xp => processFlightloop xp now s
    | .post lock submitted env => processPost lock submitted env s
  else s

/-- The command after the events. -/
def run (s : State V) (events : List (DrqvEvent V)) : State V := events.foldl (step t) s

/-- A flight loop that is due, with what it reads. -/
def dueRun (s : State V) : DrqvEvent V → Option (Sample V)
  | .flightloop now xp =>
    if t ∈ s.port.queues s.command.phase ∧ s.command.failed = false ∧ 0 ≤ now ∧
        (checkDue xp now s).1 = true then
      some ⟨now, (updateDatarefs xp (checkDue xp now s).2.command.datarefs).1⟩
    else none
  | .post _ _ _ => none

/-- The flight loops that are due, in order. -/
def dueRuns : State V → List (DrqvEvent V) → List (Sample V)
  | _, [] => []
  | s, event :: rest => (dueRun t s event).toList ++ dueRuns (step t s event) rest

/-- A due flight loop with repetitions left takes its sample at another time than 0 and after the
last sample was sent. -/
def OrderlyStep (s : State V) (event : DrqvEvent V) : Prop :=
  ∀ x, dueRun t s event = some x → 0 < s.command.timesRemaining →
    x.time ≠ 0 ∧ s.command.timestamp ≤ 0

/-- All steps are orderly. -/
def Orderly : State V → List (DrqvEvent V) → Prop
  | _, [] => True
  | s, event :: rest => OrderlyStep t s event ∧ Orderly (step t s event) rest

end

section

variable {V : Type} (text : BitVec 32 → Option V → List UInt8)

/-- The values of a sample as they are sent. -/
def payload : List (DrqvDataref V) → List UInt8
  | [] => []
  | d :: rest => text d.type d.valueBuffer ++
      rest.flatMap fun d => bytes ";" ++ text d.type d.valueBuffer

/-- The line for the sample `x`, as number `k` of `n` samples: the last one closes the channel. -/
def line (id : ChannelId) (n k : ℕ) (x : Sample V) : CommandMessage :=
  ⟨if k + 1 = n then .finish else .continues, id, x.time, some (payload text x.datarefs)⟩

/-- The lines for the first `n` samples. -/
def lines (id : ChannelId) (n : ℕ) (due : List (Sample V)) : List CommandMessage :=
  (due.take n).mapIdx (line text id n)

/-- The line that post-processing is going to send, if there is one. -/
def waiting (s : State V) : List CommandMessage :=
  if isClosed s.port.sent = true ∨ s.command.timestamp ≤ 0 then []
  else [⟨if s.command.timesRemaining = 0 then .finish else .continues, s.command.channelId,
    s.command.timestamp, some (payload text s.command.datarefs)⟩]

/-- The lines that were received, and the one that waits. -/
def total (s : State V) : List CommandMessage := dataLines s.port.sent ++ waiting text s

end

/-! ### Loops that succeed -/

section

variable {V : Type} {text : BitVec 32 → Option V → List UInt8} {xp : XpDatarefs V}
  {env : EncodeEnv V}

/-- What a dataref was requested as. -/
def wantedOf (datarefs : List (DrqvDataref V)) : List (List UInt8 × BitVec 32) :=
  datarefs.map fun d => (d.name, d.type)

/-- A dataref with a buffer, of a type that can be read. -/
def Readable (d : DrqvDataref V) : Prop :=
  d.valueBuffer ≠ none ∧ (isSimpleType d.type = true ∨ isArrayType d.type = true)

theorem findDatarefs_served {ds : List (DrqvDataref V)} (hserves : xp.Serves (wantedOf ds))
    (hreadable : ∀ d ∈ ds, Readable d) :
    (findDatarefs xp ds).2 = none ∧ wantedOf (findDatarefs xp ds).1 = wantedOf ds ∧
      ∀ d ∈ (findDatarefs xp ds).1, Readable d := by
  induction ds with
  | nil => exact ⟨rfl, rfl, fun _ himpossible => nomatch himpossible⟩
  | cons d rest ih =>
    obtain ⟨hfound, hwanted, hall⟩ := ih
      ⟨fun d' hd' => hserves.find d' (List.mem_cons_of_mem _ hd'),
        fun d' hd' => hserves.getArray d' (List.mem_cons_of_mem _ hd')⟩
      fun d' hd' => hreadable d' (List.mem_cons_of_mem _ hd')
    obtain ⟨hbuffer, htype⟩ := hreadable d List.mem_cons_self
    obtain ⟨ref, hfind, htypes⟩ := hserves.find (d.name, d.type) List.mem_cons_self
    have hsome : d.valueBuffer.isNone = false := by
      cases hvalue : d.valueBuffer with
      | none => exact absurd hvalue hbuffer
      | some value => rfl
    have hrun : findDatarefs xp (d :: rest) =
        ({ d with xpRef := some ref } :: (findDatarefs xp rest).1, (findDatarefs xp rest).2) := by
      conv_lhs => unfold findDatarefs
      rw [hsome]
      simp only [Bool.false_eq_true, ↓reduceIte, hfind]
      rw [if_neg htypes]
    rw [hrun]
    refine ⟨hfound, congrArg ((d.name, d.type) :: ·) hwanted, fun d' hd' => ?_⟩
    rcases List.mem_cons.1 hd' with rfl | hrest
    · exact ⟨hbuffer, htype⟩
    · exact hall d' hrest

theorem updateDatarefs_served {ds : List (DrqvDataref V)} (hserves : xp.Serves (wantedOf ds))
    (hreadable : ∀ d ∈ ds, Readable d) :
    (updateDatarefs xp ds).2 = none ∧ wantedOf (updateDatarefs xp ds).1 = wantedOf ds ∧
      ∀ d ∈ (updateDatarefs xp ds).1, Readable d := by
  induction ds with
  | nil => exact ⟨rfl, rfl, fun _ himpossible => nomatch himpossible⟩
  | cons d rest ih =>
    obtain ⟨hread, hwanted, hall⟩ := ih
      ⟨fun d' hd' => hserves.find d' (List.mem_cons_of_mem _ hd'),
        fun d' hd' => hserves.getArray d' (List.mem_cons_of_mem _ hd')⟩
      fun d' hd' => hreadable d' (List.mem_cons_of_mem _ hd')
    obtain ⟨-, htype⟩ := hreadable d List.mem_cons_self
    have hvalue : ∃ value, readDataref xp d = .ok value := by
      unfold readDataref
      split_ifs with hsimple harray
      · exact ⟨_, rfl⟩
      · obtain ⟨value, hget⟩ := hserves.getArray (d.name, d.type) List.mem_cons_self d.xpRef
        exact ⟨value, by rw [hget]; rfl⟩
      · exact absurd htype (by simp [hsimple, harray])
    obtain ⟨value, hvalue⟩ := hvalue
    have hrun : updateDatarefs xp (d :: rest) =
        ({ d with valueBuffer := some value } :: (updateDatarefs xp rest).1,
          (updateDatarefs xp rest).2) := by
      conv_lhs => unfold updateDatarefs
      rw [hvalue]
    rw [hrun]
    refine ⟨hread, congrArg ((d.name, d.type) :: ·) hwanted, fun d' hd' => ?_⟩
    rcases List.mem_cons.1 hd' with rfl | hrest
    · exact ⟨Option.some_ne_none value, htype⟩
    · exact hall d' hrest

/-- From the second dataref on, each value is preceded by a separator. -/
theorem encodeDatarefs_succ (h : env.Encodes text) (n : ℕ) (out : List UInt8)
    (ds : List (DrqvDataref V)) :
    encodeDatarefs env (n + 1) out ds =
      .ok (out ++ ds.flatMap fun d => bytes ";" ++ text d.type d.valueBuffer) := by
  induction ds generalizing n out with
  | nil => simp [encodeDatarefs]
  | cons d rest ih =>
    have hnext := ih (n + 1) (out ++ bytes ";" ++ text d.type d.valueBuffer)
    simpa [encodeDatarefs, h.copySeparator, h.appendSeparator, h.encode, h.appendValue] using hnext

theorem encodeAll_eq (h : env.Encodes text) (ds : List (DrqvDataref V)) :
    encodeAll env ds = .ok (payload text ds) := by
  have hall : encodeDatarefs env 0 [] ds = .ok (payload text ds) := by
    cases ds with
    | nil => rfl
    | cons d rest =>
      simpa [encodeDatarefs, h.encode, h.appendValue, payload] using
        encodeDatarefs_succ h 0 (text d.type d.valueBuffer) rest
  simp [encodeAll, h.createList, h.concatenate, hall]

end

/-! ### One step -/

section

variable {V : Type} {text : BitVec 32 → Option V → List UInt8} {t n : ℕ} {id : ChannelId}
  {wanted : List (List UInt8 × BitVec 32)} {due : List (Sample V)} {s : State V}

theorem processFlightloop_idle {xp : XpDatarefs V} {now : ℤ}
    (hinit : s.command.initialized = true ∨ (checkDue xp now s).1 = true)
    (h : ¬ (s.command.failed = false ∧ 0 ≤ now ∧ (checkDue xp now s).1 = true)) :
    ∃ wait, processFlightloop xp now s =
      s.modify fun command => { command with intervalWait := wait } := by
  unfold processFlightloop
  dsimp only
  by_cases hready : (s.command.failed || decide (now < 0)) = true
  · rw [if_pos hready]
    exact ⟨s.command.intervalWait, rfl⟩
  · have hwaits : (checkDue xp now s).1 = false := by
      rw [Bool.or_eq_true, not_or, decide_eq_true_eq, Bool.not_eq_true, Int.not_lt] at hready
      exact Bool.eq_false_iff.2 fun hdue => h ⟨hready.1, hready.2, hdue⟩
    have hinit' : s.command.initialized = true := hinit.resolve_right (by rw [hwaits]; decide)
    rw [if_neg hready, hwaits]
    unfold checkDue
    rw [hinit']
    simp only [Bool.not_true, Bool.not_false, Bool.false_eq_true, ↓reduceIte]
    split_ifs
    · exact ⟨s.command.intervalWait, rfl⟩
    · exact ⟨s.command.intervalWait - 1, rfl⟩

/-- The messages of a flight loop that is due: the first one confirms the channel. -/
def confirmation (now : ℤ) (s : State V) : List CommandMessage :=
  if s.command.initialized then [] else [⟨.confirm, s.command.channelId, now, none⟩]

/-- A flight loop that is due and finds all datarefs. -/
theorem checkDue_served {xp : XpDatarefs V} {now : ℤ}
    (hserves : xp.Serves (wantedOf s.command.datarefs))
    (hreadable : ∀ d ∈ s.command.datarefs, Readable d) :
    ∃ wait ds, (checkDue xp now s).2 =
        ⟨{ s.command with initialized := true, intervalWait := wait, datarefs := ds },
          { s.port with sent := s.port.sent ++ confirmation now s }⟩ ∧
      wantedOf ds = wantedOf s.command.datarefs ∧ (∀ d ∈ ds, Readable d) ∧
      (s.command.initialized = true → ds = s.command.datarefs) ∧
      (s.command.initialized = false → (checkDue xp now s).1 = true) := by
  unfold checkDue confirmation
  cases hinit : s.command.initialized with
  | true =>
    simp only [Bool.not_true, Bool.false_eq_true, ↓reduceIte, List.append_nil]
    split_ifs
    · exact ⟨s.command.intervalWait, s.command.datarefs, by rw [← hinit], rfl,
        hreadable, fun _ => rfl, fun himpossible => nomatch himpossible⟩
    · exact ⟨s.command.intervalWait - 1, s.command.datarefs, by rw [← hinit]; rfl, rfl, hreadable,
        fun _ => rfl, fun himpossible => nomatch himpossible⟩
  | false =>
    obtain ⟨hfound, hwanted, hall⟩ := findDatarefs_served hserves hreadable
    simp only [Bool.not_false, ↓reduceIte, initializeCommand, hfound, Bool.not_true,
      Bool.false_eq_true]
    exact ⟨s.command.intervalWait, _, rfl, hwanted, hall, (fun himpossible => nomatch himpossible),
      fun _ => trivial⟩

theorem resetTimer_eq (now : ℤ) (command : CommandDrqv V) :
    ∃ wait notBefore, resetTimer now command =
      { command with intervalWait := wait, intervalNotBeforeTimestamp := notBefore } := by
  unfold resetTimer
  split_ifs
  · exact ⟨_, _, rfl⟩
  · exact ⟨_, _, rfl⟩

theorem processFlightloop_due {xp : XpDatarefs V} {now : ℤ}
    (hserves : xp.Serves (wantedOf s.command.datarefs))
    (hreadable : ∀ d ∈ s.command.datarefs, Readable d) (hremaining : 0 ≤ s.command.timesRemaining)
    (hworking : s.command.failed = false) (hnow : 0 ≤ now) (hdue : (checkDue xp now s).1 = true) :
    ∃ wait notBefore ds,
      wantedOf ds = wantedOf s.command.datarefs ∧ (∀ d ∈ ds, Readable d) ∧
      (s.command.initialized = true → 0 = s.command.timesRemaining → ds = s.command.datarefs) ∧
      (0 < s.command.timesRemaining →
        ds = (updateDatarefs xp (checkDue xp now s).2.command.datarefs).1) ∧
      processFlightloop xp now s =
        ⟨{ s.command with
            initialized := true
            intervalWait := wait
            intervalNotBeforeTimestamp := notBefore
            timesRemaining :=
              s.command.timesRemaining - if 0 < s.command.timesRemaining then 1 else 0
            timestamp := if 0 < s.command.timesRemaining then now else s.command.timestamp
            datarefs := ds },
          { s.port with sent := s.port.sent ++ confirmation now s }⟩ := by
  obtain ⟨wait', ds, hrun, hwanted, hall, hsame, -⟩ := @checkDue_served V s xp now hserves hreadable
  obtain ⟨wait, notBefore, htimer⟩ := resetTimer_eq now (checkDue xp now s).2.command
  have hready : ¬ (s.command.failed || decide (now < 0)) = true := by
    simp [hworking, Int.not_lt.2 hnow]
  unfold processFlightloop
  dsimp only
  rw [if_neg hready, hdue, if_neg (by decide)]
  unfold State.modify
  rw [htimer, hrun]
  unfold repeatSample
  dsimp only
  by_cases hleft : 0 < s.command.timesRemaining
  · -- there are repetitions left: the values are sampled
    obtain ⟨hread, hwanted', hall'⟩ := updateDatarefs_served (hwanted ▸ hserves) hall
    simp only [hleft, ↓reduceIte, sample, State.modify, hread]
    exact ⟨wait, notBefore, _, hwanted'.trans hwanted, hall',
      fun _ hzero => absurd hleft (by omega), fun _ => rfl, rfl⟩
  · have hfinite : s.command.timesRemaining ≠ infiniteRepetition := by
      unfold infiniteRepetition
      omega
    simp only [hleft, ↓reduceIte, hfinite, ne_eq, not_false_eq_true, Int.sub_zero]
    exact ⟨wait, notBefore, ds, hwanted, hall, fun hinit _ => hsame hinit, False.elim, rfl⟩

/-- A command that was created with `n` repetitions, after the flight loops `due` were due.  The
datarefs are those that are wanted on the channel `id`; the task `t` is scheduled until the channel
is closed. -/
structure Runs (t n : ℕ) (id : ChannelId) (wanted : List (List UInt8 × BitVec 32))
    (due : List (Sample V)) (s : State V) : Prop where
  working : s.command.failed = false
  remaining : s.command.timesRemaining = n - min n due.length
  untouched : s.command.initialized = false → due = [] ∧ s.command.timestamp ≤ 0
  wanted : wantedOf s.command.datarefs = wanted
  readable : ∀ d ∈ s.command.datarefs, Readable d
  schedules : s.port.Schedules t s.command.phase s.command.task
  opened : isClosed s.port.sent = false → s.command.channelId = id ∧ s.command.task ≠ none
  closed : isClosed s.port.sent = true → s.command.timesRemaining = 0

theorem Runs.initialized (h : Runs t n id wanted due s) (hn : 0 < n)
    (hzero : s.command.timesRemaining = 0) : s.command.initialized = true := by
  cases hinit : s.command.initialized with
  | true => rfl
  | false =>
    have hremaining := h.remaining
    rw [(h.untouched hinit).1, List.length_nil] at hremaining
    omega

/-- A line of data waits iff the channel is open and there is a timestamp. -/
theorem waiting_length (text : BitVec 32 → Option V → List UInt8) (s : State V) :
    (waiting text s).length ≤ 1 ∧ (isClosed s.port.sent = false →
      ((waiting text s).length = 0 ↔ s.command.timestamp ≤ 0)) := by
  unfold waiting
  by_cases hnone : isClosed s.port.sent = true ∨ s.command.timestamp ≤ 0
  · rw [if_pos hnone]
    refine ⟨Nat.zero_le 1, fun hopen => iff_of_true rfl ?_⟩
    rw [hopen] at hnone
    exact hnone.resolve_left (by decide)
  · rw [if_neg hnone]
    exact ⟨Nat.le_refl 1, fun _ => iff_of_false (by simp) fun hle => hnone (.inr hle)⟩

/-- What a step does to the lines: no sample is taken and no line is lost, or a sample is taken for
a repetition, and it is going to be the next line unless it is taken at time 0. -/
inductive Account (text : BitVec 32 → Option V → List UInt8) (t n : ℕ) (id : ChannelId)
    (due : List (Sample V)) (s : State V) (event : DrqvEvent V) (s' : State V) : Prop
  | kept (hlines : total text s' = total text s)
      (hdue : n ≤ due.length ∨ dueRun t s event = none)
  | sampled (x : Sample V) (hx : dueRun t s event = some x) (hleft : due.length < n)
      (hlines : dataLines s'.port.sent = dataLines s.port.sent)
      (hwaiting : waiting text s' = if x.time = 0 then [] else [line text id n due.length x])

theorem flightloop_account (hn : 0 < n) (h : Runs t n id wanted due s) (now : ℤ) {xp : XpDatarefs V}
    (hserves : xp.Serves wanted) (hscheduled : t ∈ s.port.queues s.command.phase) :
    Runs t n id wanted (due ++ (dueRun t s (.flightloop now xp)).toList)
      (processFlightloop xp now s) ∧
      Account text t n id due s (.flightloop now xp) (processFlightloop xp now s) := by
  have hserves' : xp.Serves (wantedOf s.command.datarefs) := h.wanted.symm ▸ hserves
  by_cases hdue : s.command.failed = false ∧ 0 ≤ now ∧ (checkDue xp now s).1 = true
  · -- the flight loop is due
    obtain ⟨wait, notBefore, ds, hwanted, hreadable, hsame, hread, hrun⟩ :=
      processFlightloop_due hserves' h.readable (by rw [h.remaining]; omega)
        h.working hdue.2.1 hdue.2.2
    have hsome : dueRun t s (.flightloop now xp) =
        some ⟨now, (updateDatarefs xp (checkDue xp now s).2.command.datarefs).1⟩ :=
      if_pos ⟨hscheduled, hdue⟩
    have hconfirmed : dataLines (s.port.sent ++ confirmation now s) = dataLines s.port.sent ∧
        isClosed (s.port.sent ++ confirmation now s) = isClosed s.port.sent := by
      unfold confirmation
      split
      · rw [List.append_nil]
        exact ⟨rfl, rfl⟩
      · rw [dataLines_concat, isClosed_concat]
        simp [isData, closes]
    rw [hrun]
    have hremaining := h.remaining
    have hlength : (due ++ (dueRun t s (.flightloop now xp)).toList).length = due.length + 1 := by
      rw [hsome]
      simp
    refine ⟨⟨h.working, ?_, (fun himpossible => nomatch himpossible),
      hwanted.trans h.wanted, hreadable, h.schedules, fun hopen => h.opened (hconfirmed.2 ▸ hopen),
      fun hclosed => ?_⟩, ?_⟩
    · rw [hlength]
      dsimp only
      split_ifs <;> omega
    · have hzero := h.closed (hconfirmed.2 ▸ hclosed)
      dsimp only
      rw [hzero]
      rfl
    by_cases hleft : 0 < s.command.timesRemaining
    · -- a repetition is left, so that the channel is open
      have hopen : isClosed s.port.sent = false :=
        Bool.eq_false_iff.2 fun hclosed => absurd (h.closed hclosed) (by omega)
      refine .sampled _ hsome (by omega) hconfirmed.1 ?_
      unfold waiting line
      simp only [hleft, ↓reduceIte, hconfirmed.2, hopen, Bool.false_eq_true, false_or, hread hleft,
        (h.opened hopen).1]
      have hlast : s.command.timesRemaining - 1 = 0 ↔ due.length + 1 = n := by omega
      by_cases hzero : now = 0
      · rw [if_pos hzero.le, if_pos hzero]
      · rw [if_neg (by omega), if_neg hzero]
        simp only [hlast]
    · have hzero : s.command.timesRemaining = 0 := by omega
      refine .kept ?_ (.inl (by omega))
      unfold total waiting
      simp only [hleft, ↓reduceIte, hconfirmed.1, hconfirmed.2, Int.sub_zero,
        hsame (h.initialized hn hzero) hzero.symm]
  · have hnone : dueRun t s (.flightloop now xp) = none := if_neg fun hall => hdue hall.2
    have hinit : s.command.initialized = true ∨ (checkDue xp now s).1 = true := by
      obtain ⟨-, -, -, -, -, -, hfirst⟩ := @checkDue_served V s xp now hserves' h.readable
      cases hinit : s.command.initialized with
      | true => exact .inl rfl
      | false => exact .inr (hfirst hinit)
    obtain ⟨wait, hrun⟩ := processFlightloop_idle hinit hdue
    rw [hnone, hrun, Option.toList_none, List.append_nil]
    exact ⟨⟨h.working, h.remaining, h.untouched, h.wanted, h.readable, h.schedules,
      h.opened, h.closed⟩, .kept rfl (.inr hnone)⟩

theorem waiting_of_none (h : isClosed s.port.sent = true ∨ s.command.timestamp ≤ 0) :
    waiting text s = [] := if_pos h

/-- Post-processing sends the line that waits. -/
theorem post_account (h : Runs t n id wanted due s) (lock : ErrorCode) {env : EncodeEnv V}
    (henv : env.Encodes text) :
    Runs t n id wanted due (processPost lock .none env s) ∧
      total text (processPost lock .none env s) = total text s ∧
      waiting text (processPost lock .none env s) = [] := by
  unfold processPost
  dsimp only
  rw [if_neg (by rw [h.working]; decide)]
  by_cases hnone : s.command.initialized = false ∨ s.command.timestamp ≤ 0
  · -- there is nothing to send
    have hidle : s.command.timestamp ≤ 0 :=
      hnone.elim (fun hinit => (h.untouched hinit).2) fun hle => hle
    rw [if_pos hidle, ite_self]
    exact ⟨h, rfl, waiting_of_none (.inr hidle)⟩
  rw [not_or, Bool.not_eq_false] at hnone
  rw [hnone.1, if_neg (by decide), if_neg hnone.2, encodeAll_eq henv]
  have hremaining := h.remaining
  by_cases hleft : 0 < s.command.timesRemaining
  · -- more lines are to follow: the channel stays open
    have hopen : isClosed s.port.sent = false :=
      Bool.eq_false_iff.2 fun hclosed => absurd (h.closed hclosed) (by omega)
    have hopen' : isClosed (s.port.sent ++ [⟨.continues, s.command.channelId, s.command.timestamp,
        some (payload text s.command.datarefs)⟩]) = false := by
      rw [isClosed_concat, hopen]
      rfl
    simp only [hleft, true_or, ↓reduceIte, ne_eq, not_true_eq_false]
    refine ⟨⟨h.working, h.remaining, fun _ => ⟨?_, Int.le_refl 0⟩, h.wanted,
      h.readable, h.schedules, fun _ => h.opened hopen, fun hclosed => ?_⟩, ?_,
        waiting_of_none (.inr (Int.le_refl 0))⟩
    · rename_i hinit
      exact absurd (hnone.1.symm.trans hinit) (by decide)
    · exact absurd (hclosed.symm.trans hopen') (by decide)
    · unfold total
      rw [waiting_of_none (.inr (Int.le_refl 0)), List.append_nil]
      unfold waiting
      rw [if_neg (by simp [hopen, hnone.2]), if_neg (by omega)]
      refine (dataLines_concat _ _).trans ?_
      rw [if_pos ⟨hopen, rfl⟩]
  · -- this is the last line: the channel is closed, and the command terminates
    have hzero : s.command.timesRemaining = 0 := by omega
    have hlast : ¬ (0 < s.command.timesRemaining ∨ s.command.timesRemaining =
        infiniteRepetition) := by
      unfold infiniteRepetition
      omega
    simp only [hlast, ↓reduceIte]
    set sent := s.send .finish s.command.timestamp
        (some (payload text s.command.datarefs)) with hsent
    have hschedules : sent.port.Schedules t sent.command.phase sent.command.task := h.schedules
    obtain ⟨hscheduled, hmessages, -⟩ := hschedules.terminate lock sent.command.channelId
    have hclosed : isClosed sent.port.sent = true := by
      refine (isClosed_concat _ _).trans ?_
      exact Bool.or_eq_true_iff.2 (.inr rfl)
    have hclosed' : isClosed (terminate lock sent).2.port.sent = true := by
      change isClosed (sent.port.terminate _ _ _ _).2.2.2.sent = true
      rw [hmessages, isClosed_concat, hclosed]
      rfl
    refine ⟨⟨h.working, h.remaining, h.untouched, h.wanted, h.readable, hscheduled, fun hopen => ?_,
      fun _ => hzero⟩, ?_, waiting_of_none (.inl hclosed')⟩
    · exact absurd (hclosed'.symm.trans hopen) (by decide)
    · unfold total
      rw [waiting_of_none (.inl hclosed'), List.append_nil]
      change dataLines (sent.port.terminate _ _ _ _).2.2.2.sent = _
      rw [hmessages, dataLines_concat, if_neg (by simp [isData]), List.append_nil]
      refine (dataLines_concat _ _).trans ?_
      unfold waiting
      cases hopen : isClosed s.port.sent with
      | false => simp [hnone.2, hzero, isData]
      | true => simp

/-- **What a step does to the lines.** -/
theorem step_account (hn : 0 < n) (h : Runs t n id wanted due s) {event : DrqvEvent V}
    (hok : event.Succeeds text wanted) :
    Runs t n id wanted (due ++ (dueRun t s event).toList) (step t s event) ∧
      Account text t n id due s event (step t s event) := by
  unfold step
  by_cases hscheduled : t ∈ s.port.queues s.command.phase
  · rw [if_pos hscheduled]
    cases event with
    | flightloop now xp => exact flightloop_account hn h now hok hscheduled
    | post lock submitted env =>
      obtain ⟨rfl, henv⟩ := hok
      obtain ⟨hruns, htotal, -⟩ := post_account h lock henv
      rw [show dueRun t s (.post lock .none env) = none from rfl, Option.toList_none,
        List.append_nil]
      exact ⟨hruns, .kept htotal (.inr rfl)⟩
  · rw [if_neg hscheduled]
    have hnone : dueRun t s event = none := by
      cases event with
      | flightloop now xp => exact if_neg fun hall => hscheduled hall.1
      | post lock submitted env => rfl
    rw [hnone, Option.toList_none, List.append_nil]
    exact ⟨h, .kept rfl (.inr hnone)⟩

/-! ### Whole runs -/

theorem lines_length (text : BitVec 32 → Option V → List UInt8) (id : ChannelId) (n : ℕ)
    (due : List (Sample V)) :
    (lines text id n due).length = min n due.length := by
  simp [lines]

/-- Flight loops after the `n`-th one do not count. -/
theorem lines_append_of_le (id : ChannelId) (h : n ≤ due.length) (more : List (Sample V)) :
    lines text id n (due ++ more) = lines text id n due := by
  unfold lines
  rw [List.take_append_of_le_length h]

theorem lines_concat (id : ChannelId) (h : due.length < n) (x : Sample V) :
    lines text id n (due ++ [x]) = lines text id n due ++ [line text id n due.length x] := by
  unfold lines
  rw [List.take_of_length_le (by simp; omega), List.take_of_length_le (by omega),
    List.mapIdx_concat]

variable {event : DrqvEvent V} {s' : State V} {events : List (DrqvEvent V)}

/-- An orderly step keeps the lines in step with the flight loops. -/
theorem Account.orderly (h : Account text t n id due s event s') (hruns : Runs t n id wanted due s)
    (htotal : total text s = lines text id n due) (horderly : OrderlyStep t s event) :
    total text s' = lines text id n (due ++ (dueRun t s event).toList) := by
  cases h with
  | kept hlines hdue =>
    rw [hlines, htotal]
    rcases hdue with hall | hnone
    · rw [lines_append_of_le id hall]
    · rw [hnone, Option.toList_none, List.append_nil]
  | sampled x hx hleft hlines hwaiting =>
    have hremaining := hruns.remaining
    obtain ⟨htime, hsent⟩ := horderly x hx (by omega)
    rw [hx, Option.toList_some, lines_concat id hleft, ← htotal]
    unfold total
    rw [hlines, hwaiting, if_neg htime, waiting_of_none (.inr hsent), List.append_nil]

/-- A step that is not orderly loses a line. -/
theorem Account.disorderly (h : Account text t n id due s event s')
    (hruns : Runs t n id wanted due s)
    (htotal : total text s = lines text id n due) (hnot : ¬ OrderlyStep t s event) :
    (total text s').length < min n (due ++ (dueRun t s event).toList).length := by
  cases h with
  | kept hlines hdue =>
    refine absurd (fun x hx hleft => ?_) hnot
    have hremaining := hruns.remaining
    rcases hdue with hall | hnone
    · omega
    · rw [hnone] at hx
      cases hx
  | sampled x hx hleft hlines hwaiting =>
    have hremaining := hruns.remaining
    have hlength : (dataLines s.port.sent).length + (waiting text s).length = due.length := by
      rw [← List.length_append, ← total, htotal, lines_length,
        Nat.min_eq_right (Nat.le_of_lt hleft)]
    have hopen : isClosed s.port.sent = false :=
      Bool.eq_false_iff.2 fun hclosed => absurd (hruns.closed hclosed) (by omega)
    obtain ⟨-, hzero⟩ := waiting_length text s
    unfold total
    rw [hlines, hwaiting, hx, List.length_append, List.length_append, Option.toList_some,
      List.length_singleton]
    by_cases htime : x.time = 0
    · rw [if_pos htime, List.length_nil]
      omega
    · -- the last sample has not been sent, and is overwritten
      have hunsent : ¬ s.command.timestamp ≤ 0 := by
        intro hsent
        refine hnot fun x' hx' _ => ?_
        obtain rfl : x = x' := Option.some.inj (hx.symm.trans hx')
        exact ⟨htime, hsent⟩
      have hone : (waiting text s).length ≠ 0 := fun hnone => hunsent ((hzero hopen).1 hnone)
      rw [if_neg htime, List.length_singleton]
      omega

/-- A line that was lost is not made up for. -/
theorem Account.behind (h : Account text t n id due s event s')
    (hbehind : (total text s).length < min n due.length) :
    (total text s').length < min n (due ++ (dueRun t s event).toList).length := by
  cases h with
  | kept hlines hdue =>
    rw [hlines, List.length_append]
    omega
  | sampled x hx hleft hlines hwaiting =>
    unfold total at hbehind ⊢
    have hone : (waiting text s').length ≤ 1 := (waiting_length text s').1
    rw [List.length_append] at hbehind
    rw [hx, List.length_append, List.length_append, Option.toList_some,
      List.length_singleton, hlines]
    omega

theorem run_cons (s : State V) (event : DrqvEvent V) (rest : List (DrqvEvent V)) :
    run t s (event :: rest) = run t (step t s event) rest := rfl

theorem run_runs (hn : 0 < n) (h : Runs t n id wanted due s)
    (hok : ∀ event ∈ events, event.Succeeds text wanted) :
    Runs t n id wanted (due ++ dueRuns t s events) (run t s events) := by
  induction events generalizing s due with
  | nil => simpa [dueRuns, run] using h
  | cons event rest ih =>
    obtain ⟨hruns, -⟩ := step_account hn h (hok event List.mem_cons_self)
    rw [run_cons, dueRuns, ← List.append_assoc]
    exact ih hruns fun event' hrest => hok event' (List.mem_cons_of_mem _ hrest)

/-- **In step.**  As long as all steps are orderly, the lines are those of the due flight loops. -/
theorem run_orderly (hn : 0 < n) (h : Runs t n id wanted due s)
    (hok : ∀ event ∈ events, event.Succeeds text wanted)
    (htotal : total text s = lines text id n due)
    (horderly : Orderly t s events) :
    total text (run t s events) = lines text id n (due ++ dueRuns t s events) := by
  induction events generalizing s due with
  | nil => simpa [dueRuns, run] using htotal
  | cons event rest ih =>
    obtain ⟨hruns, haccount⟩ := step_account hn h (hok event List.mem_cons_self)
    rw [run_cons, dueRuns, ← List.append_assoc]
    exact ih hruns (fun event' hrest => hok event' (List.mem_cons_of_mem _ hrest))
      (haccount.orderly h htotal horderly.1) horderly.2

theorem run_behind (hn : 0 < n) (h : Runs t n id wanted due s)
    (hok : ∀ event ∈ events, event.Succeeds text wanted)
    (hbehind : (total text s).length < min n due.length) :
    (total text (run t s events)).length < min n (due ++ dueRuns t s events).length := by
  induction events generalizing s due with
  | nil => simpa [dueRuns, run] using hbehind
  | cons event rest ih =>
    obtain ⟨hruns, haccount⟩ := step_account hn h (hok event List.mem_cons_self)
    rw [run_cons, dueRuns, ← List.append_assoc]
    exact ih hruns (fun event' hrest => hok event' (List.mem_cons_of_mem _ hrest))
      (haccount.behind hbehind)

/-- **Behind.**  A step that is not orderly loses a line for good. -/
theorem run_disorderly (hn : 0 < n) (h : Runs t n id wanted due s)
    (hok : ∀ event ∈ events, event.Succeeds text wanted)
    (htotal : total text s = lines text id n due)
    (hnot : ¬ Orderly t s events) :
    (total text (run t s events)).length < min n (due ++ dueRuns t s events).length := by
  induction events generalizing s due with
  | nil => exact absurd trivial hnot
  | cons event rest ih =>
    obtain ⟨hruns, haccount⟩ := step_account hn h (hok event List.mem_cons_self)
    have hrest : ∀ event' ∈ rest, event'.Succeeds text wanted :=
      fun event' hmem => hok event' (List.mem_cons_of_mem _ hmem)
    rw [run_cons, dueRuns, ← List.append_assoc]
    by_cases horderly : OrderlyStep t s event
    · exact ih hruns hrest (haccount.orderly h htotal horderly) fun hall => hnot ⟨horderly, hall⟩
    · exact run_behind hn hruns hrest (haccount.disorderly h htotal horderly)

end

/-! ### From the creation on -/

section

variable {V : Type}

theorem parseDataref_readable {blank : BitVec 32 → V} {parameter : List UInt8} {d : DrqvDataref V}
    (h : parseDataref blank parameter = .ok d) : Readable d := by
  have htypes : ∀ name, xprcParseType name ≠ xplmTypeUnknown →
      isSimpleType (xprcParseType name) = true ∨ isArrayType (xprcParseType name) = true := by
    intro name
    unfold xprcParseType
    split_ifs <;> decide
  unfold parseDataref at h
  dsimp only at h
  split_ifs at h with _ _ hunknown
  cases h
  exact ⟨Option.some_ne_none _, htypes _ hunknown⟩

theorem mapM_readable {blank : BitVec 32 → V} {parameters : List (List UInt8)}
    {ds : List (DrqvDataref V)}
    (h : parameters.mapM (fun parameter => parseDataref blank (cString parameter)) = .ok ds) :
    ∀ d ∈ ds, Readable d := by
  induction parameters generalizing ds with
  | nil =>
    cases h
    intro d himpossible
    cases himpossible
  | cons parameter rest ih =>
    rw [List.mapM_cons] at h
    cases hd : parseDataref blank (cString parameter) with
    | error text =>
      rw [hd] at h
      cases h
    | ok d =>
      rw [hd] at h
      cases hrest : rest.mapM (fun parameter => parseDataref blank (cString parameter)) with
      | error text =>
        rw [hrest] at h
        cases h
      | ok ds' =>
        rw [hrest] at h
        cases h
        intro d' hd'
        rcases List.mem_cons.1 hd' with rfl | hmem
        · exact parseDataref_readable hd
        · exact ih hrest d' hmem

theorem configure_ok {lib : Library} {blank : BitVec 32 → V} {request : Request} {now : ℤ}
    {command : CommandDrqv V} (h : configure lib blank request now = .ok command) :
    (request.hasOption "times" = true → 0 < command.timesRemaining ∧
        command.timesRemaining = atoi lib (request.getOption "times" "0")) ∧
      command.channelId = request.channelId ∧ command.initialized = false ∧ command.failed = false ∧
      command.timestamp = 0 ∧ ∀ d ∈ command.datarefs, Readable d := by
  unfold configure at h
  simp only [bind, Except.bind, pure, Except.pure] at h
  split at h
  · cases h
  split at h
  · cases h
  rename_i times htimes
  have hrepeats : request.hasOption "times" = true →
      0 < times ∧ times = atoi lib (request.getOption "times" "0") := by
    intro hoption
    unfold parseTimes at htimes
    rw [if_pos hoption] at htimes
    dsimp only at htimes
    split_ifs at htimes with hpos
    cases htimes
    exact ⟨Int.not_le.1 hpos, rfl⟩
  split at h
  · cases h
  split at h
  · cases h
  split at h
  · cases h
  split at h
  · cases h
  rename_i hds
  cases h
  exact ⟨hrepeats, rfl, rfl, rfl, rfl, mapM_readable hds⟩

variable {text : BitVec 32 → Option V → List UInt8} {lib : Library} {blank : BitVec 32 → V}
  {request : Request} {t n : ℕ} {s : State V} {events : List (DrqvEvent V)}

theorem Created.runs (h : Created lib blank request t s) (htimes : request.hasOption "times" = true)
    (hn : atoi lib (request.getOption "times" "0") = n) :
    0 < n ∧ Runs t n request.channelId (wantedOf s.command.datarefs) [] s ∧
      total text s = lines text request.channelId n [] := by
  obtain ⟨now, -, hconfigured⟩ := h.configured
  obtain ⟨hrepeats, hid, -, hworking, htimestamp, hreadable⟩ := configure_ok hconfigured
  obtain ⟨hpos, hremaining⟩ := hrepeats htimes
  have hopen : isClosed s.port.sent = false := by
    rw [h.silent]
    rfl
  refine ⟨?_, ⟨hworking, ?_, fun _ => ⟨rfl, htimestamp.le⟩, rfl, hreadable,
    .inl ⟨h.task, h.scheduled⟩, fun _ => ⟨hid, ?_⟩, fun hclosed => ?_⟩, ?_⟩
  · dsimp only at hpos hremaining
    omega
  · refine hremaining.trans ?_
    rw [hn]
    simp
  · rw [h.task]
    exact Option.some_ne_none t
  · exact absurd (hclosed.symm.trans hopen) (by decide)
  · unfold total
    rw [h.silent, waiting_of_none (.inr htimestamp.le)]
    simp [dataLines, received, lines]

theorem mem_of_mem_dataLines {m : CommandMessage} {sent : List CommandMessage}
    (h : m ∈ dataLines sent) : m ∈ sent := by
  have hreceived := (List.mem_filter.1 h).1
  clear h
  induction sent with
  | nil => exact hreceived
  | cons m' rest ih =>
    unfold received at hreceived
    split at hreceived
    · exact List.mem_cons.2 (.inl (List.mem_singleton.1 hreceived))
    · rcases List.mem_cons.1 hreceived with rfl | hrest
      · exact List.mem_cons_self
      · exact List.mem_cons_of_mem _ (ih hrest)

/-- With the `n`-th line the channel is closed. -/
theorem isClosed_of_lines {due : List (Sample V)} {id : ChannelId} {sent : List CommandMessage}
    (hn : 0 < n) (hdue : n ≤ due.length) (h : dataLines sent = lines text id n due) :
    isClosed sent = true := by
  have hlength := lines_length text id n due
  have hlt : n - 1 < (lines text id n due).length := by omega
  have hlast : ((lines text id n due).get ⟨n - 1, hlt⟩).call = .finish := by
    simp only [List.get_eq_getElem, lines, List.getElem_mapIdx, line]
    rw [if_pos (by omega)]
  have hmem : (lines text id n due).get ⟨n - 1, hlt⟩ ∈ dataLines sent := by
    rw [h]
    exact List.get_mem _ _
  exact List.any_eq_true.2 ⟨_, mem_of_mem_dataLines hmem, by rw [closes, hlast]; rfl⟩

theorem run_concat (s : State V) (events : List (DrqvEvent V)) (event : DrqvEvent V) :
    run t s (events ++ [event]) = step t (run t s events) event := by
  simp [run]

/-- After post-processing no line waits. -/
theorem post_waiting {due : List (Sample V)} {id : ChannelId}
    {wanted : List (List UInt8 × BitVec 32)}
    (h : Runs t n id wanted due s) (lock : ErrorCode) {env : EncodeEnv V}
    (henv : env.Encodes text) :
    dataLines (step t s (.post lock .none env)).port.sent = total text s := by
  unfold step
  by_cases hscheduled : t ∈ s.port.queues s.command.phase
  · rw [if_pos hscheduled]
    obtain ⟨-, htotal, hwaiting⟩ := post_account h lock henv
    rw [← htotal, total, hwaiting, List.append_nil]
  · -- a command whose task is not scheduled any more has closed the channel
    have hclosed : isClosed s.port.sent = true := by
      by_contra hopen
      obtain ⟨-, htask⟩ := h.opened (Bool.eq_false_iff.2 hopen)
      rcases h.schedules with ⟨-, hcount⟩ | ⟨hnone, -⟩
      · exact hscheduled (List.count_pos_iff.1 (by omega))
      · exact htask hnone
    rw [if_neg hscheduled, total, waiting_of_none (.inl hclosed), List.append_nil]

/-- **The lines of DRQV.**  A command was created with `n` repetitions; flight loops and
post-processing run in any order; the datarefs exist, and encoding and sending succeed.

As long as every sample is taken at a time other than 0 and after the one before was sent, the lines
that were received and the one that waits are those of the first `n` due flight loops, and the
channel is closed exactly when the `n`-th line was received.

When `n` flight loops have been due and post-processing has run, the channel has received exactly
these `n` lines, and was closed by the last one, if and only if every sample was taken like that. -/
theorem drqv_lines (h : Created lib blank request t s) (htimes : request.hasOption "times" = true)
    (hn : atoi lib (request.getOption "times" "0") = n)
    (hok : ∀ event ∈ events, event.Succeeds text (wantedOf s.command.datarefs)) :
    (Orderly t s events →
      total text (run t s events) = lines text request.channelId n (dueRuns t s events) ∧
      (isClosed (run t s events).port.sent = true ↔
        (dataLines (run t s events).port.sent).length = n)) ∧
    (n ≤ (dueRuns t s events).length → ∀ lock env, env.Encodes text →
      let s' := run t s (events ++ [.post lock .none env])
      (dataLines s'.port.sent = lines text request.channelId n (dueRuns t s events) ∧
        (lines text request.channelId n (dueRuns t s events)).length = n ∧
        isClosed s'.port.sent = true ↔ Orderly t s events)) := by
  obtain ⟨hpos, hruns, htotal⟩ := @Created.runs V text lib blank request t n s h htimes hn
  have hruns' : Runs t n request.channelId (wantedOf s.command.datarefs) (dueRuns t s events)
      (run t s events) := run_runs hpos hruns hok
  have hlength := lines_length text request.channelId n (dueRuns t s events)
  refine ⟨fun horderly => ?_, fun hdue lock env henv => ?_⟩
  · have hlines : total text (run t s events) = lines text request.channelId n
        (dueRuns t s events) :=
      run_orderly hpos hruns hok htotal horderly
    refine ⟨hlines, fun hclosed => ?_, fun hall => ?_⟩
    · have hremaining := hruns'.remaining
      rw [hruns'.closed hclosed] at hremaining
      rw [total, waiting_of_none (.inl hclosed), List.append_nil] at hlines
      rw [hlines, hlength]
      omega
    · have hsum := congrArg List.length hlines
      rw [total, List.length_append, hlength, hall] at hsum
      have hnone : waiting text (run t s events) = [] := List.length_eq_zero_iff.1 (by omega)
      rw [total, hnone, List.append_nil] at hlines
      exact isClosed_of_lines hpos (by omega) hlines
  · dsimp only
    rw [run_concat, post_waiting hruns' lock henv]
    constructor
    · rintro ⟨hlines, hall, -⟩
      by_contra hnot
      have hbehind := run_disorderly hpos hruns hok htotal hnot
      rw [List.nil_append, hlines, hlength] at hbehind
      exact Nat.lt_irrefl _ hbehind
    · intro horderly
      have hlines : total text (run t s events) =
          lines text request.channelId n (dueRuns t s events) :=
        run_orderly hpos hruns hok htotal horderly
      have hreceived := (post_waiting hruns' lock henv).trans hlines
      exact ⟨hlines, by rw [hlength]; omega, isClosed_of_lines hpos hdue hreceived⟩

end

/-! ### A dataref that is requested twice -/

/-- A C library for numbers that are small. -/
def plainLibrary : Library := ⟨fun _ => 0, fun _ => none, fun _ => 0, fun _ _ => true⟩

/-- A request for the values of one dataref in each frame, as often as `times` says. -/
def eachFrame (times : String) : Request where
  channelId := 0
  commandName := bytes "DRQV"
  options := [⟨bytes "times", bytes times⟩, ⟨bytes "freq", bytes "1f"⟩]
  parameters := [bytes "int:a"]

/-- The command for it, with the task 9. -/
def eachFrameCommand (times : ℤ) : State ℤ where
  command :=
    { channelId := 0, task := some 9, phase := .beforeFlightModel, interval := 1, intervalWait := 0
      isIntervalFrames := true, timesRemaining := times, intervalNotBeforeTimestamp := 0
      initialized := false, failed := false, datarefs := [⟨bytes "a", xplmTypeInt, none, some 0⟩]
      timestamp := 0 }
  port := ⟨.empty, fun phase => if phase = .beforeFlightModel then [9] else [], []⟩

/-- X-Plane with one dataref. -/
def oneDataref (value : ℤ) : XpDatarefs ℤ where
  find name := if name = bytes "a" then some 7 else none
  types _ := xplmTypeInt
  get _ _ := value
  getArray _ _ := .ok value

/-- A value is encoded as one byte. -/
def oneByte (_ : BitVec 32) (value : Option ℤ) : List UInt8 := [UInt8.ofNat (value.getD 0).toNat]

/-- An encoding that succeeds. -/
def encodesBytes : EncodeEnv ℤ :=
  ⟨true, fun _ => true, fun _ => true, fun type value => some (oneByte type value),
    fun _ => true, true⟩

theorem dueRun_time {t : ℕ} {s : State ℤ} {now : ℤ} {xp : XpDatarefs ℤ} {x : Sample ℤ}
    (h : dueRun t s (.flightloop now xp) = some x) : x.time = now := by
  unfold dueRun at h
  dsimp only at h
  split_ifs at h
  cases h
  rfl

theorem encodesBytes_encodes : encodesBytes.Encodes oneByte :=
  ⟨rfl, fun _ => rfl, fun _ => rfl, fun _ _ => rfl, fun _ => rfl, rfl⟩

theorem oneDataref_serves (value : ℤ) : (oneDataref value).Serves [(bytes "a", xplmTypeInt)] := by
  refine ⟨fun d hd => ?_, fun d _ ref => ⟨value, rfl⟩⟩
  obtain rfl := List.mem_singleton.1 hd
  refine ⟨7, rfl, ?_⟩
  change xplmTypeInt &&& xplmTypeInt ≠ 0
  decide

theorem eachFrameCommand_created {times : String} {n : ℕ}
    (h : configure plainLibrary (fun _ => 0) (eachFrame times) 0 =
      .ok { (eachFrameCommand n).command with task := none }) :
    Created plainLibrary (fun _ => 0) (eachFrame times) 9 (eachFrameCommand n) :=
  ⟨rfl, ⟨0, Int.le_refl 0, h⟩, rfl, rfl, rfl⟩

/-- Two flight loops are due before post-processing runs: of two lines the channel receives one, and
is closed.  And a single sample at session time 0 is never sent. -/
theorem drqv_lines_lost :
    let flight (now value : ℤ) : DrqvEvent ℤ := .flightloop now (oneDataref value)
    let post : DrqvEvent ℤ := .post .none .none encodesBytes
    let twice := run 9 (eachFrameCommand 2) [flight 20 1, flight 40 2, post]
    let once := run 9 (eachFrameCommand 1) [flight 0 1, post, flight 20 2, post]
    (Created plainLibrary (fun _ => 0) (eachFrame "2") 9 (eachFrameCommand 2) ∧
      (dueRuns 9 (eachFrameCommand 2) [flight 20 1, flight 40 2, post]).length = 2 ∧
      dataLines twice.port.sent = [⟨.finish, 0, 40, some [2]⟩] ∧ isClosed twice.port.sent = true) ∧
    (Created plainLibrary (fun _ => 0) (eachFrame "1") 9 (eachFrameCommand 1) ∧
      (dueRuns 9 (eachFrameCommand 1) [flight 0 1, post, flight 20 2, post]).length = 2 ∧
      dataLines once.port.sent = [] ∧ isClosed once.port.sent = false) := by
  refine ⟨⟨eachFrameCommand_created (by rfl), by decide +kernel, by decide +kernel,
    by decide +kernel⟩, ⟨eachFrameCommand_created (by rfl), by decide +kernel, by decide +kernel, by
      decide +kernel⟩⟩

/-- With post-processing after each flight loop both lines are received. -/
theorem drqv_lines_each_frame :
    let events : List (DrqvEvent ℤ) :=
      [.flightloop 20 (oneDataref 1), .post .none .none encodesBytes, .flightloop 40 (oneDataref 2)]
    let s := run 9 (eachFrameCommand 2) (events ++ [.post .none .none encodesBytes])
    dataLines s.port.sent = [⟨.continues, 0, 20, some [1]⟩, ⟨.finish, 0, 40, some [2]⟩] ∧
      isClosed s.port.sent = true := by
  intro events s
  have hok : ∀ event ∈ events,
      event.Succeeds oneByte (wantedOf (eachFrameCommand 2).command.datarefs) := by
    intro event hevent
    simp only [events, List.mem_cons, List.not_mem_nil, or_false] at hevent
    rcases hevent with rfl | rfl | rfl
    · exact oneDataref_serves 1
    · exact ⟨rfl, encodesBytes_encodes⟩
    · exact oneDataref_serves 2
  have hcreated : Created plainLibrary (fun _ => 0) (eachFrame "2") 9 (eachFrameCommand 2) :=
    eachFrameCommand_created (n := 2) (by rfl)
  obtain ⟨-, hall⟩ := drqv_lines (n := 2) hcreated (by decide +kernel) (by decide +kernel) hok
  obtain ⟨hlines, -, hclosed⟩ :=
    (hall (by decide +kernel) .none encodesBytes encodesBytes_encodes).2 (by
    refine ⟨fun x hx _ => ?_, fun x hx _ => ?_, fun x hx _ => ?_, trivial⟩
    · rw [dueRun_time hx]
      decide
    · cases hx
    · rw [dueRun_time hx]
      decide +kernel)
  refine ⟨hlines.trans (by decide +kernel), hclosed⟩

end Drqv

end XprcServer
