import Mathlib.Data.Nat.Find
import XprcServer.Commands.CmtrRuns
import XprcServer.Lib.Windows

/-!
# Intervals in session time

DRQV and CMTR both repeat what they do after an interval, which can be a number of milliseconds.
They keep a due time for it: a flight loop that finds it reached adds the interval to it, again and
again, until it lies in the future.  The due times therefore do not drift.  They stay on the
boundaries of the windows that begin with the session time at which the command was created.

The two commands start differently.  The due time of DRQV is the time of its creation, and that of
CMTR is one interval later; but neither looks at it in the first flight loop, in which a run always
starts.

* `forwardLoop_rounds` : the loop that forwards the due time ends;
* `TimedCommand` : what the two commands have in common, with the flight loops of a run recorded;
* `TimedCommand.onWindows` : a run starts in the first flight loop, and then in the first one in a
  window;
* `runs_start_on_windows` : this holds for both commands.
-/

namespace XprcServer

open Lib

/-! ### The catch-up loop -/

namespace Cmtr

theorem forwardLoop_eq {now interval : ℤ} {rounds fuel : ℕ} {due : ℤ}
    (hrounds : ∀ k < rounds, due + k * interval ≤ now) (hend : now < due + rounds * interval)
    (hfuel : rounds ≤ fuel) : forwardLoop now interval fuel due = due + rounds * interval := by
  induction rounds generalizing fuel due with
  | zero =>
    cases fuel with
    | zero => simp [forwardLoop]
    | succ fuel =>
      rw [forwardLoop, if_neg (by simpa using hend)]
      simp
  | succ rounds ih =>
    obtain ⟨fuel, rfl⟩ := Nat.exists_eq_add_of_le' hfuel
    have hshift : ∀ k : ℕ, due + interval + k * interval = due + (k + 1 : ℕ) * interval := by
      intro k
      rw [Int.natCast_add, Int.natCast_one, Int.add_mul, Int.one_mul]
      omega
    have hfirst : due ≤ now := by simpa using hrounds 0 (Nat.succ_pos rounds)
    rw [← Nat.add_assoc, forwardLoop, if_pos hfirst, ih, hshift]
    · intro k hk
      rw [hshift]
      exact hrounds (k + 1) (Nat.succ_lt_succ hk)
    · rw [hshift]
      exact hend
    · exact Nat.le_add_left rounds fuel

/-- The loop that forwards a due time is left after some rounds, whatever the time is. -/
theorem forwardLoop_rounds {interval : ℤ} (hinterval : 0 < interval) (now due : ℤ) :
    ∃ rounds : ℕ, (∀ k < rounds, due + k * interval ≤ now) ∧ now < due + rounds * interval ∧
      ∀ fuel, (now - due).toNat + 1 ≤ fuel →
        forwardLoop now interval fuel due = due + rounds * interval := by
  have hmany : now < due + ((now - due).toNat + 1 : ℕ) * interval := by
    have hmul : ((now - due).toNat + 1 : ℕ) * (1 : ℤ) ≤ ((now - due).toNat + 1 : ℕ) * interval :=
      Int.mul_le_mul_of_nonneg_left hinterval (Int.natCast_nonneg _)
    omega
  have hend : ∃ rounds : ℕ, now < due + rounds * interval := ⟨_, hmany⟩
  have hbefore : ∀ k < Nat.find hend, due + k * interval ≤ now := fun k hk =>
    Int.not_lt.1 (Nat.find_min hend hk)
  refine ⟨Nat.find hend, hbefore, Nat.find_spec hend, fun fuel hfuel => ?_⟩
  exact forwardLoop_eq hbefore (Nat.find_spec hend) (Nat.le_trans (Nat.find_min' hend hmany) hfuel)

/-- A due time on a boundary is forwarded to the next boundary. -/
theorem forwardLoop_eq_nextDue {interval : ℤ} (hinterval : 0 < interval) {c now due : ℤ}
    (hmod : due ≡ c [ZMOD interval]) (hle : due ≤ now + interval) :
    forwardLoop now interval ((now - due).toNat + 1) due = nextDue c interval now := by
  obtain ⟨rounds, hbefore, hend, heq⟩ := forwardLoop_rounds hinterval now due
  rw [heq _ (Nat.le_refl _)]
  refine eq_nextDue hinterval ?_ hend ?_
  · refine Int.ModEq.trans ?_ hmod
    simp [Int.ModEq]
  · cases rounds with
    | zero => simpa using hle
    | succ rounds =>
      -- before the last round the due time had been reached
      have hlast := hbefore rounds (Nat.lt_succ_self rounds)
      rw [Int.natCast_add, Int.natCast_one, Int.add_mul, Int.one_mul]
      omega

end Cmtr

/-! ### Commands with a due time -/

/-- A command, the session times of the flight loops so far, and of those in which a run started. -/
structure Timed (σ : Type) where
  state : σ
  frames : List ℤ
  runs : List ℤ

/-- Whether a command has not seen a flight loop yet, and its due time. -/
structure Clock where
  fresh : Bool
  due : ℤ
  deriving DecidableEq, Repr

/-- What a flight loop at the time `now` makes of them. -/
def Clock.tick (interval now : ℤ) (clock : Clock) : Clock where
  fresh := false
  due :=
    if clock.fresh || clock.due ≤ now then
      Cmtr.forwardLoop now interval ((now - clock.due).toNat + 1) clock.due
    else clock.due

/-- A command with a task.  Flight loops come with a session time; what else they and
post-processing find is of the types `X` and `Y`. -/
structure TimedCommand (σ X Y : Type) where
  flightloop : ℤ → X → σ → σ
  post : Y → σ → σ
  /-- A flight loop starts a run. -/
  starts : ℤ → X → σ → Bool
  /-- Flight loops do nothing any more. -/
  stopped : σ → Bool
  clock : σ → Clock

namespace TimedCommand

variable {σ X Y : Type} {C : TimedCommand σ X Y} {steady : σ → Prop} {i c : ℤ}

/-- What happens to a command. -/
inductive Act (X Y : Type) where
  | flightloop (now : ℤ) (x : X)
  | post (y : Y)

/-- The steps of a command that was created at the time `c`; time does not go back. -/
inductive Step (C : TimedCommand σ X Y) (c : ℤ) : Timed σ → Act X Y → Timed σ → Prop
  | flightloop {s : Timed σ} {now : ℤ} {x : X} (hnow : c ≤ now) (hmono : ∀ t ∈ s.frames, t ≤ now) :
      Step C c s (.flightloop now x)
        { state := C.flightloop now x s.state
          frames := now :: s.frames
          runs := if C.starts now x s.state then now :: s.runs else s.runs }
  | post {s : Timed σ} {y : Y} : Step C c s (.post y) { s with state := C.post y s.state }

/-- The runs of a command from one of the states `start` on. -/
def system (C : TimedCommand σ X Y) (c : ℤ) (start : σ → Prop) : System (Timed σ) (Act X Y) where
  init s := start s.state ∧ s.frames = [] ∧ s.runs = []
  next := Step C c

/-- The command keeps its clock: flight loops make it tick, unless they stop the command without a
run, and nothing else touches it.  The states are those in which the options of the command are as
they were read. -/
structure Ticks (C : TimedCommand σ X Y) (i : ℤ) (steady : σ → Prop) : Prop where
  flightloop_steady : ∀ now x s, steady s → steady (C.flightloop now x s)
  post_steady : ∀ y s, steady s → steady (C.post y s)
  flightloop_stopped : ∀ now x s, C.stopped s = true → C.stopped (C.flightloop now x s) = true
  post_stopped : ∀ y s, C.stopped s = true → C.stopped (C.post y s) = true
  tick : ∀ now x s, steady s → 0 ≤ now → C.stopped s = false →
    C.starts now x s = true ∨ C.stopped (C.flightloop now x s) = false →
    C.clock (C.flightloop now x s) = (C.clock s).tick i now
  post_clock : ∀ y s, steady s → C.clock (C.post y s) = C.clock s

/-- As long as the command is not stopped, its due time is kept for the windows. -/
structure Invariant (C : TimedCommand σ X Y) (i c : ℤ) (steady : σ → Prop)
    (s : Timed σ) : Prop where
  steady : steady s.state
  paced : C.stopped s.state = false →
    ((C.clock s.state).fresh = true ↔ s.frames = []) ∧
    Paced c i (C.clock s.state).due s.frames s.runs

/-- In the states of a run the clock ticks to the next boundary. -/
theorem Invariant.tick_due {s : Timed σ} (h : Invariant C i c steady s) (hi : 0 < i)
    (hworks : C.stopped s.state = false) {now : ℤ} (hnow : c ≤ now)
    (hmono : ∀ t ∈ s.frames, t ≤ now) :
    ((C.clock s.state).tick i now).due = nextDue c i now := by
  obtain ⟨hfresh, hpaced⟩ := h.paced hworks
  unfold Clock.tick
  dsimp only
  split
  · -- this may be the first flight loop, whose due time lies in the future already
    exact Cmtr.forwardLoop_eq_nextDue hi hpaced.modEq (hpaced.le_add hi hnow hmono)
  · rename_i hnot
    obtain ⟨hseen, hlt⟩ : (C.clock s.state).fresh = false ∧ now < (C.clock s.state).due := by
      simpa using hnot
    have hframes : s.frames ≠ [] := fun hnone =>
      absurd ((hfresh.2 hnone).symm.trans hseen) (by decide)
    exact hpaced.eq_of_lt hi hframes hmono hlt

theorem Invariant.step (hticks : Ticks C i steady) (hi : 0 < i) (hc : 0 ≤ c) {s s' : Timed σ}
    {act : Act X Y} (h : Invariant C i c steady s) (hn : Step C c s act s') :
    Invariant C i c steady s' := by
  cases hn with
  | @flightloop now x hnow hmono =>
    refine ⟨hticks.flightloop_steady now x _ h.steady, fun hworks' => ?_⟩
    have hworks : C.stopped s.state = false := by
      by_contra hstopped
      have := hticks.flightloop_stopped now x _ (Bool.eq_true_of_not_eq_false hstopped)
      exact absurd (this.symm.trans hworks') (by decide)
    have hclock := hticks.tick now x _ h.steady (Int.le_trans hc hnow) hworks (.inr hworks')
    have hdue := h.tick_due hi hworks hnow hmono
    dsimp only
    rw [hclock, hdue]
    refine ⟨⟨fun himpossible => absurd himpossible Bool.false_ne_true,
      fun himpossible => absurd himpossible (List.cons_ne_nil _ _)⟩, .next hmono ?_⟩
    have hruns := (h.paced hworks).2.runs_subset
    split
    · exact List.cons_subset_cons now hruns
    · exact List.subset_cons_of_subset now hruns
  | @post y =>
    refine ⟨hticks.post_steady y _ h.steady, fun hworks' => ?_⟩
    have hworks : C.stopped s.state = false := by
      by_contra hstopped
      have := hticks.post_stopped y _ (Bool.eq_true_of_not_eq_false hstopped)
      exact absurd (this.symm.trans hworks') (by decide)
    dsimp only
    rw [hticks.post_clock y _ h.steady]
    exact h.paced hworks

/-- A flight loop that finds the command `ready` starts a run if it is the first one, or the first
one in a window after the runs so far; then the next due time is the next boundary. -/
def OnWindows (C : TimedCommand σ X Y) (ready : ℤ → X → σ → Prop) (i c : ℤ) (s : Timed σ) : Prop :=
  ∀ now x, c ≤ now → (∀ t ∈ s.frames, t ≤ now) → ready now x s.state →
    (C.starts now x s.state = true ↔ s.frames = [] ∨ OpensWindow c i s.frames s.runs now) ∧
    (C.starts now x s.state = true →
      (C.clock (C.flightloop now x s.state)).due ≡ c [ZMOD i] ∧
      now < (C.clock (C.flightloop now x s.state)).due ∧
      (C.clock (C.flightloop now x s.state)).due ≤ now + i)

theorem onWindows {start : σ → Prop} {ready : ℤ → X → σ → Prop} (hticks : Ticks C i steady)
    (hstart : ∀ s, start s → (0 < i ∧ 0 ≤ c) ∧ steady s ∧ (C.clock s).fresh = true ∧
      (C.clock s).due ≡ c [ZMOD i] ∧ (C.clock s).due ≤ c + i)
    (hready : ∀ now x s, steady s → 0 ≤ now → ready now x s → C.stopped s = false ∧
      (C.starts now x s = true ↔ (C.clock s).fresh = true ∨ (C.clock s).due ≤ now))
    {s : Timed σ} (h : (C.system c start).Reachable s) : OnWindows C ready i c s := by
  have hparameters : 0 < i ∧ 0 ≤ c :=
    h.invariant (I := fun _ => 0 < i ∧ 0 ≤ c) (fun s hs => (hstart _ hs.1).1) fun _ _ _ _ hsame _ =>
      hsame
  obtain ⟨hi, hc⟩ := hparameters
  have hinv : Invariant C i c steady s := by
    refine h.invariant (fun s hs => ?_) fun s act s' _ hs hn => hs.step hticks hi hc hn
    obtain ⟨hstarted, hframes, hruns⟩ := hs
    obtain ⟨-, hsteady, hfresh, hmod, hle⟩ := hstart _ hstarted
    refine ⟨hsteady, fun _ => ⟨⟨fun _ => hframes, fun _ => hfresh⟩, ?_⟩⟩
    rw [hframes, hruns]
    exact ⟨List.Subset.refl [], fun _ => ⟨hmod, hle⟩, fun himpossible => absurd rfl himpossible⟩
  intro now x hnow hmono hisready
  have hpos := Int.le_trans hc hnow
  obtain ⟨hworks, hstarts⟩ := hready now x _ hinv.steady hpos hisready
  obtain ⟨hfresh, hpaced⟩ := hinv.paced hworks
  refine ⟨?_, fun hrun => ?_⟩
  · rw [hstarts, hfresh]
    by_cases hframes : s.frames = []
    · simp [hframes]
    · rw [hpaced.le_iff hi hframes hmono]
  · rw [hticks.tick now x _ hinv.steady hpos hworks (.inl hrun), hinv.tick_due hi hworks hnow hmono]
    exact ⟨nextDue_modEq, lt_nextDue hi, nextDue_le_add hi⟩

end TimedCommand

/-! ### DRQV -/

namespace Drqv

variable {V : Type} {s : State V} {i : ℤ}

/-- A flight loop starts a run: the command is due, and there are repetitions left. -/
def startsRun (xp : XpDatarefs V) (now : ℤ) (s : State V) : Bool :=
  !s.command.failed && decide (0 ≤ now) && (checkDue xp now s).1 &&
    (decide (0 < s.command.timesRemaining) ||
      decide (s.command.timesRemaining = infiniteRepetition))

/-- DRQV as a command with a due time; post-processing comes with the results of `lock_schedule` and
`continue_channel`. -/
def timed : TimedCommand (State V) (XpDatarefs V) (ErrorCode × ErrorCode × EncodeEnv V) where
  flightloop now xp s := processFlightloop xp now s
  post env s := processPost env.1 env.2.1 env.2.2 s
  starts now xp s := startsRun xp now s
  stopped s := s.command.failed
  clock s := ⟨!s.command.initialized, s.command.intervalNotBeforeTimestamp⟩

/-- What `drqv_initialize` leaves: it initializes the command, or makes it fail. -/
theorem initializeCommand_command (xp : XpDatarefs V) (s : State V) :
    (initializeCommand xp s).2.command =
      { s.command with
        datarefs := (findDatarefs xp s.command.datarefs).1
        initialized := (initializeCommand xp s).1 || s.command.initialized
        failed := !(initializeCommand xp s).1 || s.command.failed } := by
  unfold initializeCommand
  dsimp only
  split
  · rfl
  · rfl

theorem repeatSample_timestamp (xp : XpDatarefs V) (now : ℤ) (s : State V) :
    (repeatSample xp now s).command.timestamp =
      if 0 < s.command.timesRemaining ∨ s.command.timesRemaining = infiniteRepetition then now
      else s.command.timestamp := by
  have hsample : ∀ s : State V, (sample xp now s).command.timestamp = now := by
    intro s
    unfold sample
    dsimp only
    split
    · rfl
    · rfl
  unfold repeatSample
  by_cases hmore : 0 < s.command.timesRemaining
  · rw [if_pos hmore, if_pos (.inl hmore), hsample]
  · by_cases hinfinite : s.command.timesRemaining = infiniteRepetition
    · rw [if_neg hmore, if_neg (not_not.2 hinfinite), if_pos (.inr hinfinite), hsample]
    · rw [if_neg hmore, if_pos hinfinite, if_neg (not_or.2 ⟨hmore, hinfinite⟩)]

theorem checkDue_keeps (xp : XpDatarefs V) (now : ℤ) (s : State V) :
    (checkDue xp now s).2.command.timestamp = s.command.timestamp ∧
      (checkDue xp now s).2.command.timesRemaining = s.command.timesRemaining := by
  have hcommand := initializeCommand_command xp s
  unfold checkDue
  dsimp only
  split_ifs
  · simp [State.markFailed, State.modify, hcommand]
  · simp [State.send, hcommand]
  · exact ⟨rfl, rfl⟩
  · exact ⟨rfl, rfl⟩

/-- This is when the values are sampled. -/
theorem processFlightloop_timestamp (xp : XpDatarefs V) (now : ℤ) (s : State V) :
    (processFlightloop xp now s).command.timestamp =
      if startsRun xp now s then now else s.command.timestamp := by
  obtain ⟨htimestamp, htimes⟩ := checkDue_keeps xp now s
  have hreset : ∀ command : CommandDrqv V, (resetTimer now command).timestamp = command.timestamp ∧
      (resetTimer now command).timesRemaining = command.timesRemaining := by
    intro command
    unfold resetTimer
    split
    · exact ⟨rfl, rfl⟩
    · exact ⟨rfl, rfl⟩
  unfold processFlightloop startsRun
  by_cases hidle : (s.command.failed || decide (now < 0)) = true
  · rw [if_pos hidle, if_neg]
    rcases Bool.or_eq_true_iff.1 hidle with hfailed | hnow
    · simp [hfailed]
    · simp [of_decide_eq_true hnow]
  · obtain ⟨hworks, hnow⟩ : s.command.failed = false ∧ 0 ≤ now := by simpa using hidle
    rw [if_neg hidle]
    cases hdue : (checkDue xp now s).1 with
    | false => simp [hdue, htimestamp]
    | true =>
      simp only [hdue, Bool.not_true, Bool.false_eq_true, ↓reduceIte]
      rw [repeatSample_timestamp]
      simp [State.modify, hreset, htimestamp, htimes, hworks, hnow]

/-- The timer of the command is as it was. -/
structure SameTimer (s s' : State V) : Prop where
  interval : s'.command.interval = s.command.interval
  isIntervalFrames : s'.command.isIntervalFrames = s.command.isIntervalFrames
  initialized : s'.command.initialized = s.command.initialized
  due : s'.command.intervalNotBeforeTimestamp = s.command.intervalNotBeforeTimestamp
  failed : s.command.failed = true → s'.command.failed = true

theorem SameTimer.refl (s : State V) : SameTimer s s := ⟨rfl, rfl, rfl, rfl, id⟩

theorem SameTimer.trans {s' s'' : State V} (h : SameTimer s s') (h' : SameTimer s' s'') :
    SameTimer s s'' :=
  ⟨h'.interval.trans h.interval, h'.isIntervalFrames.trans h.isIntervalFrames,
    h'.initialized.trans h.initialized, h'.due.trans h.due, fun hfailed =>
      h'.failed (h.failed hfailed)⟩

theorem SameTimer.clock {s s' : State V} (h : SameTimer s s') : timed.clock s' = timed.clock s := by
  simp [timed, h.initialized, h.due]

theorem sameTimer_send (call : ChannelCall) (timestamp : ℤ) (text : Option (List UInt8))
    (s : State V) :
    SameTimer s (s.send call timestamp text) := ⟨rfl, rfl, rfl, rfl, id⟩

theorem sameTimer_markFailed (s : State V) : SameTimer s s.markFailed :=
  ⟨rfl, rfl, rfl, rfl, fun _ => rfl⟩

theorem sameTimer_sample (xp : XpDatarefs V) (now : ℤ) (s : State V) : SameTimer s
    (sample xp now s) := by
  unfold sample
  dsimp only
  split
  · exact ⟨rfl, rfl, rfl, rfl, fun _ => rfl⟩
  · exact ⟨rfl, rfl, rfl, rfl, id⟩

theorem sameTimer_repeatSample (xp : XpDatarefs V) (now : ℤ) (s : State V) :
    SameTimer s (repeatSample xp now s) := by
  unfold repeatSample
  split_ifs
  · have hcounted : SameTimer s
        (s.modify fun command => { command with timesRemaining := command.timesRemaining - 1 }) :=
      ⟨rfl, rfl, rfl, rfl, id⟩
    exact hcounted.trans (sameTimer_sample xp now _)
  · exact .refl s
  · exact sameTimer_sample xp now s

theorem sameTimer_processPost (lock submitted : ErrorCode) (env : EncodeEnv V) (s : State V) :
    SameTimer s (processPost lock submitted env s) := by
  unfold processPost
  dsimp only
  -- failed, not initialized, nothing to send, and then the two results of the encoding
  split
  · exact ⟨rfl, rfl, rfl, rfl, id⟩
  split
  · exact .refl s
  split
  · exact .refl s
  split
  · exact (sameTimer_send _ _ _ s).trans (sameTimer_markFailed _)
  · split_ifs
    · exact ⟨rfl, rfl, rfl, rfl, fun _ => rfl⟩
    · exact ⟨rfl, rfl, rfl, rfl, id⟩
    · exact ⟨rfl, rfl, rfl, rfl, id⟩

/-- Unless it stops in the initialization, a flight loop that is due resets the timer and repeats;
one that is not does nothing. -/
theorem processFlightloop_cases (xp : XpDatarefs V) {now : ℤ} (hnow : 0 ≤ now)
    (hworks : s.command.failed = false) (hmillis : s.command.isIntervalFrames = false) :
    (s.command.initialized = false ∧ (initializeCommand xp s).1 = false ∧
      processFlightloop xp now s = (initializeCommand xp s).2.markFailed ∧
      startsRun xp now s = false) ∨
    (((s.command.initialized = false ∧ (initializeCommand xp s).1 = true) ∨
        (s.command.initialized = true ∧ s.command.intervalNotBeforeTimestamp ≤ now)) ∧
      (startsRun xp now s = true ↔
        0 < s.command.timesRemaining ∨ s.command.timesRemaining = infiniteRepetition) ∧
      ∃ s' : State V, s'.command.interval = s.command.interval ∧
        s'.command.isIntervalFrames = false ∧ s'.command.initialized = true ∧
        s'.command.intervalNotBeforeTimestamp = s.command.intervalNotBeforeTimestamp ∧
        processFlightloop xp now s = repeatSample xp now (s'.modify (resetTimer now))) ∨
    (s.command.initialized = true ∧ now < s.command.intervalNotBeforeTimestamp ∧
      processFlightloop xp now s = s ∧ startsRun xp now s = false) := by
  have hproceeds : (s.command.failed || decide (now < 0)) = false := by
    simp [hworks, Int.not_lt.2 hnow]
  unfold processFlightloop startsRun
  rw [hproceeds, if_neg Bool.false_ne_true]
  have hcommand := initializeCommand_command xp s
  cases hinit : s.command.initialized with
  | false =>
    cases hok : (initializeCommand xp s).1 with
    | false =>
      left
      have hdue : checkDue xp now s = (false, (initializeCommand xp s).2.markFailed) := by
        simp [checkDue, hinit, hok]
      rw [hdue]
      simp
    | true =>
      right
      left
      have hdue : checkDue xp now s =
          (true, (initializeCommand xp s).2.send .confirm now none) := by
        simp [checkDue, hinit, hok]
      rw [hdue]
      refine ⟨.inl ⟨rfl, rfl⟩, by simp [hworks, hnow],
        (initializeCommand xp s).2.send .confirm now none, ?_⟩
      simp [State.send, hcommand, hmillis, hok]
  | true =>
    have hdue : checkDue xp now s = (decide (s.command.intervalNotBeforeTimestamp ≤ now), s) := by
      simp [checkDue, hinit, hmillis]
    right
    rw [hdue]
    by_cases hle : s.command.intervalNotBeforeTimestamp ≤ now
    · exact .inl ⟨.inr ⟨rfl, hle⟩, by simp [hle, hworks, hnow], s, rfl, hmillis,
        hinit, rfl, by simp [hle]⟩
    · exact .inr ⟨rfl, Int.not_le.1 hle, by simp [hle], by simp [hle]⟩

/-- The interval is `i` milliseconds. -/
def Steady (i : ℤ) (s : State V) : Prop :=
  s.command.interval = i ∧ s.command.isIntervalFrames = false

theorem processFlightloop_stopped (xp : XpDatarefs V) {now : ℤ}
    (h : s.command.failed = true ∨ now < 0) : processFlightloop xp now s = s := by
  unfold processFlightloop
  rw [if_pos (by simpa using h)]

theorem processFlightloop_steady (xp : XpDatarefs V) (now : ℤ) (h : Steady i s) :
    Steady i (processFlightloop xp now s) := by
  by_cases hidle : s.command.failed = true ∨ now < 0
  · rw [processFlightloop_stopped xp hidle]
    exact h
  obtain ⟨hworks, hnow⟩ : s.command.failed = false ∧ 0 ≤ now := by simpa using hidle
  rcases processFlightloop_cases xp hnow hworks h.2 with
    ⟨-, -, heq, -⟩ | ⟨-, -, s', hinterval, hmillis, -, -, heq⟩ | ⟨-, -, heq, -⟩
  · rw [heq]
    unfold Steady State.markFailed State.modify
    dsimp only
    rw [initializeCommand_command]
    exact h
  · have hsame := sameTimer_repeatSample xp now (s'.modify (resetTimer now))
    rw [heq]
    refine ⟨hsame.interval.trans ?_, hsame.isIntervalFrames.trans ?_⟩
    all_goals simp [State.modify, resetTimer, hmillis, hinterval, h.1]
  · rw [heq]
    exact h

theorem processFlightloop_clock (xp : XpDatarefs V) {now : ℤ} (h : Steady i s) (hnow : 0 ≤ now)
    (hworks : s.command.failed = false)
    (hruns : startsRun xp now s = true ∨ (processFlightloop xp now s).command.failed = false) :
    timed.clock (processFlightloop xp now s) = (timed.clock s).tick i now := by
  obtain ⟨hi, hmillis⟩ := h
  rcases processFlightloop_cases xp hnow hworks hmillis with
    ⟨-, -, heq, hnorun⟩ | ⟨hready, -, s', hinterval, hmillis', hinit, hdue, heq⟩ |
      ⟨hinit, hlt, heq, -⟩
  · -- without a run the command would have had to go on
    rw [hnorun, heq] at hruns
    simp [State.markFailed, State.modify] at hruns
  · have hreached : ((timed.clock s).fresh || decide ((timed.clock s).due ≤ now)) = true := by
      rcases hready with ⟨hfresh, -⟩ | ⟨-, hle⟩
      · simp [timed, hfresh]
      · simp [timed, hle]
    rw [heq, (sameTimer_repeatSample xp now _).clock]
    unfold Clock.tick
    rw [hreached, if_pos rfl]
    simp [timed, State.modify, resetTimer, hmillis', hinit, hdue, hinterval, hi]
  · rw [heq]
    unfold Clock.tick
    simp [timed, hinit, Int.not_le.2 hlt]

theorem timed_ticks (i : ℤ) : (timed (V := V)).Ticks i (Steady i) where
  flightloop_steady now xp _ h := processFlightloop_steady xp now h
  post_steady env s h :=
    have hsame := sameTimer_processPost env.1 env.2.1 env.2.2 s
    ⟨hsame.interval.trans h.1, hsame.isIntervalFrames.trans h.2⟩
  flightloop_stopped now xp s h := by
    change (processFlightloop xp now s).command.failed = true
    rw [processFlightloop_stopped xp (.inl h)]
    exact h
  post_stopped env s h := (sameTimer_processPost env.1 env.2.1 env.2.2 s).failed h
  tick _ xp _ h hnow hworks hruns := processFlightloop_clock xp h hnow hworks hruns
  post_clock env s _ := (sameTimer_processPost env.1 env.2.1 env.2.2 s).clock

/-- A flight loop can start a run: the command works, it initializes if it has not done so, and
there are repetitions left. -/
structure Ready (xp : XpDatarefs V) (s : State V) : Prop where
  working : s.command.failed = false
  initializes : s.command.initialized = false → (initializeCommand xp s).1 = true
  remaining : 0 < s.command.timesRemaining ∨ s.command.timesRemaining = infiniteRepetition

theorem Ready.startsRun_iff {xp : XpDatarefs V} (h : Ready xp s) (hsteady : Steady i s) {now : ℤ}
    (hnow : 0 ≤ now) :
    startsRun xp now s = true ↔
      (timed.clock s).fresh = true ∨ (timed.clock s).due ≤ now := by
  rcases processFlightloop_cases xp hnow h.working hsteady.2 with
    ⟨hinit, hfails, -⟩ | ⟨hready, hruns, -⟩ | ⟨hinit, hlt, -, hnorun⟩
  · exact absurd ((h.initializes hinit).symm.trans hfails) (by decide)
  · rw [hruns]
    refine ⟨fun _ => ?_, fun _ => h.remaining⟩
    rcases hready with ⟨hfresh, -⟩ | ⟨-, hle⟩
    · exact .inl (by simp [timed, hfresh])
    · exact .inr hle
  · rw [hnorun]
    simp [timed, hinit, hlt]

/-- What `drqv_create` makes of `freq`; the interval begins with the creation. -/
theorem configure_timer {lib : Library} {blank : BitVec 32 → V} {request : Request} {now : ℤ}
    {command : CommandDrqv V} (h : configure lib blank request now = .ok command) :
    command.interval = atoi lib (request.getOption "freq" "1000ms") ∧ 0 < command.interval ∧
      command.isIntervalFrames = endsWith (request.getOption "freq" "1000ms") (bytes "f") ∧
      command.initialized = false ∧ command.intervalNotBeforeTimestamp = now := by
  unfold configure at h
  simp only [bind, Except.bind, pure, Except.pure] at h
  split at h
  · cases h
  split at h
  · cases h
  split at h
  · cases h
  split at h
  · cases h
  rename_i hinterval
  split at h
  · cases h
  split at h
  · cases h
  cases h
  exact ⟨rfl, Int.not_le.1 hinterval, rfl, rfl, rfl⟩

/-- The command was created at the session time `c`, which was known. -/
def CreatedAt (lib : Library) (blank : BitVec 32 → V) (request : Request) (c : ℤ)
    (s : State V) : Prop :=
  0 ≤ c ∧ configure lib blank request c = .ok { s.command with task := none }

/-- The due time of DRQV begins with the creation. -/
theorem onWindows_of_reachable {lib : Library} {blank : BitVec 32 → V} {request : Request} {c : ℤ}
    {s : Timed (State V)}
    (hmillis : endsWith (request.getOption "freq" "1000ms") (bytes "f") = false)
    (h : (timed.system c (CreatedAt lib blank request c)).Reachable s) :
    timed.OnWindows (fun _ xp => Ready xp) (atoi lib (request.getOption "freq" "1000ms")) c s := by
  refine TimedCommand.onWindows (timed_ticks _) (fun s hs => ?_)
    (fun now x s hsteady hnow hready => ⟨hready.working, hready.startsRun_iff hsteady hnow⟩) h
  obtain ⟨hc, hconfigured⟩ := hs
  obtain ⟨hinterval, hpos, hframes, hinit, hdue⟩ := configure_timer hconfigured
  dsimp only at hinterval hpos hframes hinit hdue
  rw [hinterval] at hpos
  refine ⟨⟨hpos, hc⟩, ⟨hinterval, hframes.trans hmillis⟩, by simp [timed, hinit], ?_, ?_⟩
  · rw [← hdue]
    exact Int.ModEq.refl _
  · change s.command.intervalNotBeforeTimestamp ≤ _
    omega

end Drqv

/-! ### CMTR -/

namespace Cmtr

variable {s : State} {i : ℤ}

/-- A flight loop starts a cycle: the first one that finds all X-Plane commands, or a later one in
which a cycle is due. -/
def startsCycle (millis : ℤ) (findCommand : List UInt8 → Option ℕ) (confirm : ErrorCode)
    (s : State) :
    Bool :=
  !(s.command.failed || s.command.finishing) && decide (0 ≤ sessionTime millis s.command) &&
    if s.command.initialized then cycleDue (sessionTime millis s.command) s.command
    else (initializeCommand findCommand confirm s).1

/-- CMTR as a command with a due time; flight loops come with what `XPLMFindCommand` and
`confirm_channel` return, and post-processing with what a termination finds. -/
def timed : TimedCommand State ((List UInt8 → Option ℕ) × ErrorCode)
    (ErrorCode × HoldEntry.ReleaseEnv) where
  flightloop now x s := processFlightloop now x.1 x.2 s
  post env s := (processPost env.1 env.2 s).2
  starts now x s := startsCycle now x.1 x.2 s
  stopped s := s.command.failed || s.command.finishing
  clock s := ⟨!s.command.initialized, s.command.intervalDueTime⟩

theorem initializeCommand_xp (findCommand : List UInt8 → Option ℕ) (confirm : ErrorCode)
    (s : State) :
    (initializeCommand findCommand confirm s).2.xp = s.xp ∧
      (initializeCommand findCommand confirm s).2.command.entries.map HoldEntry.address =
        s.command.entries.map HoldEntry.address := by
  have haddresses := (HoldEntry.findAll_map_address findCommand s.command.entries).1
  unfold initializeCommand
  dsimp only
  split_ifs
  all_goals exact ⟨rfl, haddresses⟩

/-- This is when the entries are started. -/
theorem processFlightloop_startsOf (millis : ℤ) (findCommand : List UInt8 → Option ℕ)
    (confirm : ErrorCode) (s : State) (a : ℕ) :
    (processFlightloop millis findCommand confirm s).xp.startsOf a = s.xp.startsOf a +
      if startsCycle millis findCommand confirm s then
        (s.command.entries.map HoldEntry.address).count a
      else 0 := by
  have hknown : (s.command.requiresTime && decide (millis < 0)) =
      !decide (0 ≤ sessionTime millis s.command) := by
    unfold sessionTime
    cases s.command.requiresTime with
    | false => simp
    | true =>
      rw [Bool.true_and, if_pos rfl, ← decide_not]
      exact decide_eq_decide.2 Int.not_le.symm
  obtain ⟨hxp, haddresses⟩ := initializeCommand_xp findCommand confirm s
  unfold processFlightloop startsCycle
  rw [hknown]
  cases s.command.failed || s.command.finishing with
  | true => simp
  | false =>
    cases decide (0 ≤ sessionTime millis s.command) with
    | false => simp
    | true =>
      cases s.command.initialized with
      | true =>
        refine (runCycle_startsOf _ false s a).trans ?_
        simp [sessionTime]
      | false =>
        cases hok : (initializeCommand findCommand confirm s).1 with
        | true =>
          simp only [Bool.not_true, Bool.false_eq_true, ↓reduceIte, hok]
          refine (runCycle_startsOf _ true _ a).trans ?_
          simp [hxp, haddresses]
        | false => simp [hok, hxp]

/-- The options of the interval are as they were, and the due time is `due`. -/
structure SameTimer (due : ℤ) (s s' : State) : Prop where
  interval : s'.command.interval = s.command.interval
  isIntervalFrames : s'.command.isIntervalFrames = s.command.isIntervalFrames
  requiresTime : s'.command.requiresTime = s.command.requiresTime
  initialized : s'.command.initialized = s.command.initialized
  due : s'.command.intervalDueTime = due

/-- What follows keeps the due time that is there. -/
theorem SameTimer.trans {due : ℤ} {s' s'' : State} (h : SameTimer due s s')
    (h' : SameTimer s'.command.intervalDueTime s' s'') : SameTimer due s s'' :=
  ⟨h'.interval.trans h.interval, h'.isIntervalFrames.trans h.isIntervalFrames,
    h'.requiresTime.trans h.requiresTime, h'.initialized.trans h.initialized, h'.due.trans h.due⟩

theorem sameTimer_releaseBefore (s : State) :
    SameTimer s.command.intervalDueTime s (releaseBefore s) := by
  have hcommand := releaseBefore_command s
  refine ⟨?_, ?_, ?_, ?_, ?_⟩
  all_goals rw [hcommand]

theorem sameTimer_startCycle (hholding : s.command.holding = false) (now : ℤ) :
    SameTimer s.command.intervalDueTime s (startCycle now s) := by
  obtain ⟨frames, due, hcommand⟩ := startCycle_command hholding now
  refine ⟨?_, ?_, ?_, ?_, ?_⟩
  all_goals rw [hcommand]

/-- A flight loop of a command that is initialized leaves the due time that the check of the
interval leaves. -/
theorem sameTimer_runCycle (now : ℤ) (shouldHold : Bool) (s : State) :
    SameTimer (checkInterval now shouldHold s.command).2.intervalDueTime s
      (runCycle now shouldHold s) := by
  obtain ⟨frames, frames', checked, hchecked, hcases⟩ := runCycle_cases now shouldHold s
  have hsame : SameTimer (checkInterval now shouldHold s.command).2.intervalDueTime s checked := by
    rw [hchecked]
    exact ⟨rfl, rfl, rfl, rfl, rfl⟩
  have hholding : checked.command.holding = s.command.holding := by rw [hchecked]
  have hreleased := hsame.trans (sameTimer_releaseBefore checked)
  rcases hcases with ⟨-, ⟨-, heq⟩ | ⟨hnone, heq⟩⟩ | ⟨-, heq | heq⟩
  · rw [heq]
    exact hreleased.trans (sameTimer_startCycle (by rw [releaseBefore_command]) now)
  · rw [heq]
    exact hsame.trans (sameTimer_startCycle (hholding.trans hnone) now)
  · rw [heq]
    exact hreleased
  · rw [heq]
    exact hsame

theorem sameTimer_processPost (lock : ErrorCode) (env : HoldEntry.ReleaseEnv) (s : State) :
    SameTimer s.command.intervalDueTime s (processPost lock env s).2 := by
  unfold processPost terminate
  dsimp only
  split_ifs
  all_goals exact ⟨rfl, rfl, rfl, rfl, rfl⟩

theorem processPost_flags (lock : ErrorCode) (env : HoldEntry.ReleaseEnv) (s : State) :
    (processPost lock env s).2.command.failed = s.command.failed ∧
      (processPost lock env s).2.command.finishing = s.command.finishing := by
  unfold processPost terminate
  dsimp only
  split_ifs
  all_goals exact ⟨rfl, rfl⟩

/-- Unless the initialization fails, a flight loop of a command that works runs a cycle. -/
theorem processFlightloop_cases (findCommand : List UInt8 → Option ℕ)
    (confirm : ErrorCode) {now : ℤ}
    (hnow : 0 ≤ now) (hworks : (s.command.failed || s.command.finishing) = false)
    (hrequires : s.command.requiresTime = true) :
    (s.command.initialized = false ∧
      (initializeCommand findCommand confirm s).1 = false ∧
      processFlightloop now findCommand confirm s = (initializeCommand findCommand confirm s).2) ∨
    (s.command.initialized = false ∧ (initializeCommand findCommand confirm s).1 = true ∧
      processFlightloop now findCommand confirm s =
        runCycle now true (initializeCommand findCommand confirm s).2) ∨
    (s.command.initialized = true ∧
      processFlightloop now findCommand confirm s = runCycle now false s) := by
  unfold processFlightloop
  rw [hworks, hrequires, if_neg Bool.false_ne_true, if_neg (by simpa using hnow), if_pos rfl]
  cases hinit : s.command.initialized with
  | true => exact .inr (.inr ⟨rfl, rfl⟩)
  | false =>
    cases hok : (initializeCommand findCommand confirm s).1 with
    | true => exact .inr (.inl ⟨rfl, rfl, by simp [hok]⟩)
    | false => exact .inl ⟨rfl, rfl, by simp [hok]⟩

/-- The interval is `i` milliseconds, so that the command requires the session time. -/
def Steady (i : ℤ) (s : State) : Prop :=
  s.command.interval = i ∧ s.command.isIntervalFrames = false ∧ s.command.requiresTime = true

theorem SameTimer.steady {due : ℤ} {s s' : State} (h : SameTimer due s s') (hs : Steady i s) :
    Steady i s' :=
  ⟨h.interval.trans hs.1, h.isIntervalFrames.trans hs.2.1, h.requiresTime.trans hs.2.2⟩

theorem sessionTime_eq (h : Steady i s) (millis : ℤ) : sessionTime millis s.command = millis := by
  unfold sessionTime
  rw [h.2.2, if_pos rfl]

/-- `cmtr_initialize` does not touch the timer; it initializes the command, or makes it fail. -/
theorem initializeCommand_timer (findCommand : List UInt8 → Option ℕ) (confirm : ErrorCode)
    (s : State) :
    ∃ entries, (initializeCommand findCommand confirm s).2.command =
      { s.command with
        entries := entries
        initialized := (initializeCommand findCommand confirm s).1 || s.command.initialized
        failed := !(initializeCommand findCommand confirm s).1 || s.command.failed } := by
  unfold initializeCommand
  dsimp only
  split_ifs
  · exact ⟨_, rfl⟩
  · exact ⟨_, rfl⟩
  · exact ⟨_, rfl⟩

theorem processFlightloop_stopped (findCommand : List UInt8 → Option ℕ) (confirm : ErrorCode)
    {millis : ℤ}
    (h : (s.command.failed || s.command.finishing) = true ∨ s.command.requiresTime = true ∧
      millis < 0) :
    processFlightloop millis findCommand confirm s = s := by
  unfold processFlightloop
  rcases h with hstopped | ⟨hrequires, hmillis⟩
  · rw [if_pos hstopped]
  · split
    · rfl
    · rw [if_pos (by simp [hrequires, hmillis])]

theorem processFlightloop_steady (findCommand : List UInt8 → Option ℕ) (confirm : ErrorCode)
    (now : ℤ) (h : Steady i s) : Steady i (processFlightloop now findCommand confirm s) := by
  by_cases hidle : (s.command.failed || s.command.finishing) = true ∨
      s.command.requiresTime = true ∧ now < 0
  · rw [processFlightloop_stopped findCommand confirm hidle]
    exact h
  obtain ⟨hworks, hnow⟩ : (s.command.failed || s.command.finishing) = false ∧ 0 ≤ now := by
    rw [not_or, Bool.not_eq_true] at hidle
    exact ⟨hidle.1, Int.not_lt.1 fun hlt => hidle.2 ⟨h.2.2, hlt⟩⟩
  obtain ⟨entries, hcommand⟩ := initializeCommand_timer findCommand confirm s
  have hinit : Steady i (initializeCommand findCommand confirm s).2 := by
    unfold Steady
    rw [hcommand]
    exact h
  rcases processFlightloop_cases findCommand confirm hnow hworks h.2.2 with
    ⟨-, -, heq⟩ | ⟨-, -, heq⟩ | ⟨-, heq⟩
  · rw [heq]
    exact hinit
  · rw [heq]
    exact (sameTimer_runCycle now true _).steady hinit
  · rw [heq]
    exact (sameTimer_runCycle now false s).steady h

theorem processFlightloop_clock (findCommand : List UInt8 → Option ℕ)
    (confirm : ErrorCode) {now : ℤ}
    (h : Steady i s) (hnow : 0 ≤ now) (hworks : (s.command.failed || s.command.finishing) = false)
    (hruns : startsCycle now findCommand confirm s = true ∨
      ((processFlightloop now findCommand confirm s).command.failed ||
        (processFlightloop now findCommand confirm s).command.finishing) = false) :
    timed.clock (processFlightloop now findCommand confirm s) = (timed.clock s).tick i now := by
  obtain ⟨hi, hmillis, hrequires⟩ := h
  obtain ⟨entries, hcommand⟩ := initializeCommand_timer findCommand confirm s
  rcases processFlightloop_cases findCommand confirm hnow hworks hrequires with
    ⟨hinit, hfails, heq⟩ | ⟨hinit, hok, heq⟩ | ⟨hinit, heq⟩
  · -- without a cycle the command would have had to go on
    rw [heq, hcommand, hfails] at hruns
    simp [startsCycle, hinit, hfails] at hruns
  · have hsame := sameTimer_runCycle now true (initializeCommand findCommand confirm s).2
    rw [heq]
    unfold timed Clock.tick
    dsimp only
    rw [hsame.initialized, hsame.due, checkInterval, hcommand]
    simp [hmillis, hok, hinit, hi]
  · have hsame := sameTimer_runCycle now false s
    rw [heq]
    unfold timed Clock.tick
    dsimp only
    rw [hsame.initialized, hsame.due, checkInterval]
    simp [hmillis, hinit, hi]

theorem timed_ticks (i : ℤ) : timed.Ticks i (Steady i) where
  flightloop_steady now x _ h := processFlightloop_steady x.1 x.2 now h
  post_steady env s h := (sameTimer_processPost env.1 env.2 s).steady h
  flightloop_stopped now x s h := by
    change ((processFlightloop now x.1 x.2 s).command.failed ||
      (processFlightloop now x.1 x.2 s).command.finishing) = true
    rw [processFlightloop_stopped x.1 x.2 (.inl h)]
    exact h
  post_stopped env s h := by
    change ((processPost env.1 env.2 s).2.command.failed ||
      (processPost env.1 env.2 s).2.command.finishing) = true
    rw [(processPost_flags env.1 env.2 s).1, (processPost_flags env.1 env.2 s).2]
    exact h
  tick _ x _ h hnow hworks hruns := processFlightloop_clock x.1 x.2 h hnow hworks hruns
  post_clock env s _ := by
    have hsame := sameTimer_processPost env.1 env.2 s
    simp [timed, hsame.initialized, hsame.due]

/-- A flight loop can start a cycle: the command works and has not come to its end, and it
initializes if it has not done so. -/
structure Ready (findCommand : List UInt8 → Option ℕ) (confirm : ErrorCode) (s : State) : Prop where
  working : s.command.failed = false
  remaining : s.command.finishing = false
  initializes : s.command.initialized = false → (initializeCommand findCommand confirm s).1 = true

theorem Ready.startsCycle_iff {findCommand : List UInt8 → Option ℕ} {confirm : ErrorCode}
    (h : Ready findCommand confirm s) (hsteady : Steady i s) {now : ℤ} (hnow : 0 ≤ now) :
    startsCycle now findCommand confirm s = true ↔
      (timed.clock s).fresh = true ∨ (timed.clock s).due ≤ now := by
  unfold startsCycle
  rw [sessionTime_eq hsteady, h.working, h.remaining]
  cases hinit : s.command.initialized with
  | true => simp [timed, cycleDue, hinit, hnow, hsteady.2.1]
  | false => simp [timed, hinit, hnow, h.initializes hinit]

/-- The command was created at the session time `c`. -/
def CreatedAt (lib : Library) (address : ℕ → ℕ) (request : Request) (c : ℤ) (s : State) : Prop :=
  configure lib address request c = .ok { s.command with task := none }

/-- The due time of CMTR begins one interval after the creation. -/
theorem onWindows_of_reachable {lib : Library} {address : ℕ → ℕ} {request : Request} {c : ℤ}
    {s : Timed State} (hmillis : isSuffixedFrames (request.getOption "repeatFreq" "1f") = false)
    (hrepeats : parseTimes lib (request.getOption "times" "1") ≠ 1)
    (h : (timed.system c (CreatedAt lib address request c)).Reachable s) :
    timed.OnWindows (fun _ x => Ready x.1 x.2) (atoi lib (request.getOption "repeatFreq" "1f"))
      c s := by
  refine TimedCommand.onWindows (timed_ticks _) (fun s hs => ?_) (fun now x s hsteady hnow hready =>
    ⟨by simp [timed, hready.working, hready.remaining], hready.startsCycle_iff hsteady hnow⟩) h
  obtain ⟨htimes, -, ⟨hinit, -⟩, -, hpos, htimer, hread⟩ := configure_ok hs
  dsimp only at htimes hinit hpos htimer hread
  rw [← htimes] at hrepeats
  obtain ⟨hinterval, hframes⟩ := hread hrepeats
  obtain ⟨hrequires, hc, hdue⟩ := htimer (hframes.trans hmillis)
  rw [hinterval] at hpos hdue
  refine ⟨⟨hpos, hc⟩, ⟨hinterval, hframes.trans hmillis, hrequires⟩, by simp [timed, hinit], ?_, ?_⟩
  · change s.command.intervalDueTime ≡ c [ZMOD _]
    rw [hdue]
    simp [Int.ModEq]
  · exact hdue.le

end Cmtr

/-- **Runs start once in each window.**  For DRQV with a `freq` in milliseconds, and for a CMTR that
repeats with a `repeatFreq` in milliseconds, a flight loop at a session time from the creation on
starts a run iff it is the first one, or the first one in a window that begins after the previous
run; the next due time is then the first boundary that lies after it.  A flight loop that starts a
run is one in which DRQV samples the values, and in which CMTR starts all its entries.  The loops
that forward the due times end, whatever the time is. -/
theorem runs_start_on_windows {V : Type} {lib : Library} {c : ℤ} :
    (∀ {blank : BitVec 32 → V} {request : Request} {s : Timed (Drqv.State V)},
      endsWith (request.getOption "freq" "1000ms") (bytes "f") = false →
      (Drqv.timed.system c (Drqv.CreatedAt lib blank request c)).Reachable s →
      Drqv.timed.OnWindows (fun _ xp => Drqv.Ready xp)
        (atoi lib (request.getOption "freq" "1000ms")) c s) ∧
    (∀ {address : ℕ → ℕ} {request : Request} {s : Timed Cmtr.State},
      Cmtr.isSuffixedFrames (request.getOption "repeatFreq" "1f") = false →
      Cmtr.parseTimes lib (request.getOption "times" "1") ≠ 1 →
      (Cmtr.timed.system c (Cmtr.CreatedAt lib address request c)).Reachable s →
      Cmtr.timed.OnWindows (fun _ x => Cmtr.Ready x.1 x.2)
        (atoi lib (request.getOption "repeatFreq" "1f")) c s) ∧
    (∀ (now : ℤ) (xp : XpDatarefs V) (s : Drqv.State V),
      (Drqv.timed.flightloop now xp s).command.timestamp =
        if Drqv.timed.starts now xp s then now else s.command.timestamp) ∧
    (∀ (now : ℤ) (x : (List UInt8 → Option ℕ) × ErrorCode) (s : Cmtr.State) (address : ℕ),
      (Cmtr.timed.flightloop now x s).xp.startsOf address = s.xp.startsOf address +
        if Cmtr.timed.starts now x s then
          (s.command.entries.map HoldEntry.address).count address
        else 0) ∧
    ∀ {interval : ℤ}, 0 < interval → ∀ now due : ℤ, ∃ rounds : ℕ,
      (∀ k < rounds, due + k * interval ≤ now) ∧ now < due + rounds * interval ∧
      Cmtr.forwardLoop now interval ((now - due).toNat + 1) due = due + rounds * interval := by
  refine ⟨fun hmillis h => Drqv.onWindows_of_reachable hmillis h,
    fun hmillis hrepeats h => Cmtr.onWindows_of_reachable hmillis hrepeats h,
    fun now xp s => Drqv.processFlightloop_timestamp xp now s,
    fun now x s address => Cmtr.processFlightloop_startsOf now x.1 x.2 s address,
    fun hinterval now due => ?_⟩
  obtain ⟨rounds, hbefore, hend, heq⟩ := Cmtr.forwardLoop_rounds hinterval now due
  exact ⟨rounds, hbefore, hend, heq _ (Nat.le_refl _)⟩

/-- Once in 100 milliseconds. -/
def everyTenth (command option parameter : String) : Request where
  channelId := 0
  commandName := bytes command
  options := [⟨bytes option, bytes "100ms"⟩, ⟨bytes "times", bytes "3"⟩]
  parameters := [bytes parameter]

/-- DRQV, created at the session time 50. -/
def everyTenthDrqv : Drqv.State ℤ where
  command :=
    { channelId := 0, task := some 9, phase := .beforeFlightModel
      interval := 100, intervalWait := 0
      isIntervalFrames := false, timesRemaining := 3, intervalNotBeforeTimestamp := 50
      initialized := false, failed := false, datarefs := [⟨bytes "a", xplmTypeInt, none, some 0⟩]
      timestamp := 0 }
  port := ⟨.empty, fun _ => [9], []⟩

/-- CMTR, created at the same time. -/
def everyTenthCmtr : Cmtr.State where
  command :=
    { channelId := 0, task := some 9, monitorMode := .cycle, requiresTime := true, interval := 100
      intervalDueTime := 150, intervalRemainingFrames := 0, isIntervalFrames := false, duration := 0
      durationDueTime := 0, durationRemainingFrames := 0, isDurationFrames := true
      timesRemaining := 3
      initialized := false, failed := false, finishing := false, holding := false
      entries := [⟨100, bytes "a", false, none⟩] }
  port := ⟨.empty, fun _ => [9], []⟩
  xp := ⟨⟨false, false, []⟩, [], []⟩

/-- The first flight loop starts a run, and the next boundary is 150; after it CMTR does not start
one at 149, and starts one at 260, when two boundaries have been passed. -/
theorem runs_start_on_windows_sample :
    (Drqv.startsRun (Drqv.oneDataref 5) 70 everyTenthDrqv = true ∧
      70 < (Drqv.processFlightloop (Drqv.oneDataref 5) 70
        everyTenthDrqv).command.intervalNotBeforeTimestamp) ∧
    (let found := Cmtr.processFlightloop 70 (fun _ => some 7) .none everyTenthCmtr
     Cmtr.startsCycle 149 (fun _ => some 7) .none found = false ∧
       Cmtr.startsCycle 260 (fun _ => some 7) .none found = true) ∧
    ∃ rounds : ℕ, (∀ k < rounds, (150 : ℤ) + k * 100 ≤ 260) ∧ 260 < (150 : ℤ) + rounds * 100 := by
  obtain ⟨hdrqv, hcmtr, -, -, hloop⟩ := @runs_start_on_windows ℤ Drqv.plainLibrary 50
  refine ⟨?_, ?_, ?_⟩
  · have hstart : (Drqv.timed.system 50 (Drqv.CreatedAt Drqv.plainLibrary (fun _ => (0 : ℤ))
        (everyTenth "DRQV" "freq" "int:a") 50)).Reachable ⟨everyTenthDrqv, [], []⟩ :=
      .start ⟨⟨by decide, by rfl⟩, rfl, rfl⟩
    have hready : Drqv.Ready (Drqv.oneDataref 5) everyTenthDrqv :=
      ⟨rfl, fun _ => by decide +kernel, .inl (by decide)⟩
    obtain ⟨hstarts, hdue⟩ := hdrqv (by decide +kernel) hstart 70 (Drqv.oneDataref 5) (by decide)
      (by simp) hready
    have hrun := hstarts.2 (.inl rfl)
    exact ⟨hrun, (hdue hrun).2.1⟩
  · have hstart : (Cmtr.timed.system 50 (Cmtr.CreatedAt Drqv.plainLibrary (· + 100)
        (everyTenth "CMTR" "repeatFreq" "a") 50)).Reachable ⟨everyTenthCmtr, [], []⟩ :=
      .start ⟨by rfl, rfl, rfl⟩
    have hnext : TimedCommand.Step Cmtr.timed 50 ⟨everyTenthCmtr, [], []⟩
        (.flightloop 70 (fun _ => some 7, ErrorCode.none))
        ⟨Cmtr.processFlightloop 70 (fun _ => some 7) .none everyTenthCmtr, [70], [70]⟩ :=
      .flightloop (by decide) (by simp)
    have hready : Cmtr.Ready (fun _ => some 7) .none
        (Cmtr.processFlightloop 70 (fun _ => some 7) .none everyTenthCmtr) :=
      ⟨by decide +kernel, by decide +kernel, fun _ => by decide +kernel⟩
    have hon := hcmtr (by decide +kernel) (by decide +kernel) (hstart.step _ hnext)
    have hinterval : atoi Drqv.plainLibrary
        ((everyTenth "CMTR" "repeatFreq" "a").getOption "repeatFreq" "1f") = 100 :=
          by decide +kernel
    rw [hinterval] at hon
    obtain ⟨hsoon, -⟩ := hon 149 (fun _ => some 7, ErrorCode.none) (by decide) (by simp) hready
    obtain ⟨hlate, -⟩ := hon 260 (fun _ => some 7, ErrorCode.none) (by decide) (by simp) hready
    -- 149 is in the window of the first flight loop, 260 two windows later
    refine ⟨Bool.eq_false_iff.2 fun himpossible => ?_, hlate.2 (.inr ⟨2, by decide, ?_, ?_⟩)⟩
    · rcases hsoon.1 himpossible with hnone | ⟨k, hk, hbefore, -⟩
      · cases hnone
      · have hseen := hbefore 70 (by simp)
        omega
    · simp
    · simp
  · obtain ⟨rounds, hbefore, hend, -⟩ := hloop (by decide : (0 : ℤ) < 100) 260 150
    exact ⟨rounds, hbefore, hend⟩

end XprcServer
