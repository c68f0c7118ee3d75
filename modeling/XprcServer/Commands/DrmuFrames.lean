import Mathlib
import XprcServer.Commands.DrmuCycles

/-!
# The frames of DRMU

In which flight loops a DRMU command writes its values, and how far it has got then, follows from
the times of the flight loops alone (`DrmuCycle.plan`).  Every flight loop belongs to a cycle.
Cycles that are timed in milliseconds start at multiples of the interval after the command was
created, whenever the flight loops are; nothing is written in the rest of a cycle after its duration
was reached, and base values are fetched in the first flight loop of a cycle only.

* `DrmuCycle.Follows` : the fields of the command after `n` flight loops;
* `drmu_follows_plan` : as long as the command has not failed, it has written what the plan says.
-/

namespace XprcServer

namespace DrmuCycle

/-! ### The plan -/

section

variable (c : CommandDrmu) (time : ℕ → ℤ)

/-- The cycle that the `i`-th flight loop belongs to -/
def cycle (i : ℕ) : ℤ :=
  if c.interval = 0 then 0
  else if c.isIntervalFrames then i / c.interval
  else (time i - c.baseTimeMillis) / c.interval

/-- The time at which the cycle of the `i`-th flight loop started -/
def origin (i : ℕ) : ℤ :=
  if c.interval = 0 then c.baseTimeMillis
  else if c.isIntervalFrames then time (i - i % c.interval.toNat)
  else c.baseTimeMillis + cycle c time i * c.interval

/-- How long the cycle has lasted in the `i`-th flight loop, which is counted if the duration is a
number of frames -/
def elapsed (i : ℕ) : ℤ :=
  if c.isDurationFrames then Nat.count (fun j => cycle c time j = cycle c time i) (i + 1)
  else time i - origin c time i

/-- The `i`-th flight loop is late enough for the target values. -/
def Reaches (i : ℕ) : Prop := c.method = .immediate ∨ c.duration ≤ elapsed c time i

instance (i : ℕ) : Decidable (Reaches c time i) := inferInstanceAs (Decidable (_ ∨ _))

/-- The `i`-th flight loop is the first one of its cycle. -/
def Opens (i : ℕ) : Prop := i = 0 ∨ cycle c time (i - 1) ≠ cycle c time i

instance (i : ℕ) : Decidable (Opens c time i) := inferInstanceAs (Decidable (_ ∨ _))

/-- The cycle was not completed before the `i`-th flight loop. -/
def Active (i : ℕ) : Prop := ∀ j < i, cycle c time j = cycle c time i → ¬ Reaches c time j

instance (i : ℕ) : Decidable (Active c time i) :=
  inferInstanceAs (Decidable (∀ j < i, _ → ¬ _))

/-- What the `i`-th flight loop has to do, if anything -/
def plan (i : ℕ) : Option Frame :=
  if Active c time i then
    some
      { method := c.method
        monitorMode := c.monitorMode
        updateBaseValues := c.hasFetchBasedDatarefs && decide (Opens c time i)
        progress := if c.method = .immediate then 1 else elapsed c time i / (c.duration : ℚ) }
  else none

/-- The target values, and where they are written to -/
def target (dataref : DrmuTarget) : DrmuWrite :=
  ⟨dataref.name, dataref.type, dataref.targetArrayOffset, dataref.targetValues⟩

/-- The datarefs after a flight loop, and what was written to them so far -/
def advance (floats : DrmuFloats) (xp : DrmuXp) (r : List DrmuTarget × List DrmuWrite) :
    Option Frame → List DrmuTarget × List DrmuWrite
  | none => r
  | some frame =>
    let u := updateDatarefs floats xp frame r.1
    (u.1, r.2 ++ u.2.1)

/-- The datarefs after the first `n` flight loops, and what was written to them -/
def performed (floats : DrmuFloats) (xps : ℕ → DrmuXp) (datarefs : List DrmuTarget) :
    ℕ → List DrmuTarget × List DrmuWrite
  | 0 => (datarefs, [])
  | n + 1 => advance floats (xps n) (performed floats xps datarefs n) (plan c time n)

end

/-- The flight loops among the events -/
def flightloops (events : List Event) : List (ℤ × DrmuXp) :=
  events.filterMap fun event =>
    match event with
    | .flightloop now xp => some (now, xp)
    | .post _ _ _ => none

/-- A command as it was created, with the interval and the duration that are accepted -/
structure Fresh (c : CommandDrmu) : Prop where
  interval : 0 ≤ c.interval
  duration : 0 < c.duration
  remaining : c.intervalRemainingFrames = 0
  frames : c.durationFrames = 0
  initialized : c.initialized = false
  failed : c.failed = false
  noUpdate : c.updateBaseValues = false
  incomplete : c.cycleComplete = false
  notDone : c.done = false
  datarefs : c.datarefs ≠ []

/-- The clock of the flight loops never goes back, and not behind the creation of the command. -/
structure Forward (c : CommandDrmu) (time : ℕ → ℤ) : Prop where
  mono : Monotone time
  start : c.baseTimeMillis ≤ time 0

section

variable {c : CommandDrmu} {time : ℕ → ℤ} {i n : ℕ}

theorem Forward.base_le (h : Forward c time) (i : ℕ) : c.baseTimeMillis ≤ time i :=
  h.start.trans (h.mono (Nat.zero_le i))

theorem cycle_mono (hc : Fresh c) (h : Forward c time) : Monotone (cycle c time) := by
  intro i j hij
  unfold cycle
  have hinterval := hc.interval
  split_ifs
  · exact Int.le_refl 0
  · exact Int.ediv_le_ediv (by omega) (by exact_mod_cast hij)
  · exact Int.ediv_le_ediv (by omega) (by have := h.mono hij; omega)

/-- No earlier flight loop belongs to the cycle that a flight loop opens. -/
theorem Opens.cycle_ne (hmono : Monotone (cycle c time)) (h : Opens c time i) {j : ℕ} (hj : j < i) :
    cycle c time j ≠ cycle c time i := by
  rcases h with rfl | hne
  · omega
  · intro heq
    have hlow := hmono (show j ≤ i - 1 by omega)
    have hhigh := hmono (show i - 1 ≤ i by omega)
    exact hne (le_antisymm hhigh (heq ▸ hlow))

theorem Opens.active (hmono : Monotone (cycle c time)) (h : Opens c time i) : Active c time i :=
  fun _ hj heq => absurd heq (h.cycle_ne hmono hj)

theorem count_opens (hmono : Monotone (cycle c time)) (h : Opens c time i) :
    Nat.count (fun j => cycle c time j = cycle c time i) (i + 1) = 1 := by
  have hnone : Nat.count (fun j => cycle c time j = cycle c time i) i = 0 := by
    rw [Nat.count_eq_card_filter_range, Finset.card_eq_zero, Finset.filter_eq_empty_iff]
    exact fun j hj => h.cycle_ne hmono (Finset.mem_range.1 hj)
  rw [Nat.count_succ, hnone, if_pos rfl]

end

/-! ### One flight loop -/

/-- The fields that never change -/
structure Settings (c c' : CommandDrmu) : Prop where
  method : c'.method = c.method
  monitorMode : c'.monitorMode = c.monitorMode
  interval : c'.interval = c.interval
  isIntervalFrames : c'.isIntervalFrames = c.isIntervalFrames
  duration : c'.duration = c.duration
  isDurationFrames : c'.isDurationFrames = c.isDurationFrames
  hasFetchBasedDatarefs : c'.hasFetchBasedDatarefs = c.hasFetchBasedDatarefs

theorem Settings.trans {c c' c'' : CommandDrmu} (h : Settings c c') (h' : Settings c' c'') :
    Settings c c'' where
  method := h'.method.trans h.method
  monitorMode := h'.monitorMode.trans h.monitorMode
  interval := h'.interval.trans h.interval
  isIntervalFrames := h'.isIntervalFrames.trans h.isIntervalFrames
  duration := h'.duration.trans h.duration
  isDurationFrames := h'.isDurationFrames.trans h.isDurationFrames
  hasFetchBasedDatarefs := h'.hasFetchBasedDatarefs.trans h.hasFetchBasedDatarefs

/-- The timer after the first `n` flight loops -/
structure Timed (c : CommandDrmu) (time : ℕ → ℤ) (n : ℕ) (command : CommandDrmu) : Prop where
  settings : Settings c command
  base : command.baseTimeMillis = if n = 0 then c.baseTimeMillis else origin c time (n - 1)
  remaining : c.isIntervalFrames = true → 0 < c.interval →
    command.intervalRemainingFrames = if n = 0 then 0 else c.interval - (n - 1 : ℕ) % c.interval

/-- The command `c` after the first `n` flight loops; its task is `t`. -/
structure Follows (t : ℕ) (c : CommandDrmu) (time : ℕ → ℤ) (n : ℕ) (s : State) : Prop where
  timed : Timed c time n s.command
  working : s.command.failed = false
  initialized : s.command.initialized = decide (0 < n)
  complete : s.command.cycleComplete = true ↔
    ∃ j < n, cycle c time j = cycle c time (n - 1) ∧ Reaches c time j
  frames : c.method ≠ .immediate → c.isDurationFrames = true → s.command.cycleComplete = false →
    s.command.durationFrames = Nat.count (fun j => cycle c time j = cycle c time (n - 1)) n
  noUpdate : s.command.updateBaseValues = false
  done : s.command.done = (s.command.cycleComplete && decide (c.interval = 0))
  targets : s.command.datarefs.map target = c.datarefs.map target
  scheduled : t ∈ s.port.queues s.command.phase ∨ s.command.done = true

section

variable {t : ℕ} {c command : CommandDrmu} {time : ℕ → ℤ} {i n : ℕ} {s : State}
  {floats : DrmuFloats} {xp : DrmuXp}

theorem forwardBase_eq {interval : ℤ} (hinterval : 0 < interval) (now : ℤ) {fuel : ℕ} {base : ℤ}
    (hbase : base ≤ now) (hfuel : (now - base).toNat < fuel) :
    forwardBase now interval fuel base =
      (decide (interval ≤ now - base), base + (now - base) / interval * interval) := by
  induction fuel generalizing base with
  | zero => omega
  | succ fuel ih =>
    rw [forwardBase]
    by_cases hdue : interval ≤ now - base
    · have hshift : now - base = now - (base + interval) + 1 * interval := by ring
      rw [if_pos hdue, ih (by omega) (by omega), decide_eq_true hdue, hshift,
        Int.add_mul_ediv_right _ _ (by omega)]
      congr 1
      ring
    · rw [if_neg hdue, decide_eq_false hdue, Int.ediv_eq_zero_of_lt (by omega) (by omega),
        Int.zero_mul, Int.add_zero]

theorem opens_iff (hn : 0 < n) : Opens c time n ↔ cycle c time (n - 1) ≠ cycle c time n := by
  unfold Opens
  exact ⟨fun h => h.resolve_left (by omega), .inr⟩

/-- What a check for the next cycle finds: whether the `n`-th flight loop opens a cycle, and when
that cycle started. -/
structure Checked (c : CommandDrmu) (time : ℕ → ℤ) (n : ℕ) (r : Bool × CommandDrmu) : Prop where
  restart : 0 < n → (r.1 = true ↔ Opens c time n)
  base : r.2.baseTimeMillis = origin c time n
  remaining : c.isIntervalFrames = true → 0 < c.interval →
    r.2.intervalRemainingFrames = c.interval - n % c.interval

theorem checked_once (h : Timed c time n command) (hzero : c.interval = 0) :
    Checked c time n (checkCycle (time n) command) := by
  have hrun : checkCycle (time n) command = (false, command) := by
    rw [checkCycle, h.settings.interval, hzero, if_neg (Int.lt_irrefl 0)]
  rw [hrun]
  refine ⟨fun hn => ?_, ?_, fun _ hlt => absurd hzero (by omega)⟩
  · rw [opens_iff hn, cycle, cycle, if_pos hzero, if_pos hzero]
    simp
  · rw [h.base, origin, if_pos hzero, origin, if_pos hzero, ite_self]

/-- A number is the first one with its quotient, or it has the quotient of the one before. -/
theorem div_pred_cases {k : ℕ} (hn : 0 < n) :
    (n % k = 0 ∧ (n - 1) % k + 1 = k ∧ n / k = (n - 1) / k + 1) ∨
      (n % k = (n - 1) % k + 1 ∧ n / k = (n - 1) / k) := by
  obtain ⟨m, rfl⟩ := Nat.exists_eq_succ_of_ne_zero (Nat.pos_iff_ne_zero.1 hn)
  have hdiv := Nat.div_add_mod m k
  have hdiv' := Nat.div_add_mod (m + 1) k
  rw [Nat.succ_eq_add_one, Nat.add_sub_cancel]
  by_cases hdvd : k ∣ m + 1
  · have hsucc : (m + 1) / k = m / k + 1 := Nat.succ_div_of_dvd hdvd
    rw [hsucc, Nat.mul_succ, Nat.mod_eq_zero_of_dvd hdvd] at hdiv'
    exact .inl ⟨Nat.mod_eq_zero_of_dvd hdvd, by omega, hsucc⟩
  · have hsucc : (m + 1) / k = m / k := Nat.succ_div_of_not_dvd hdvd
    rw [hsucc] at hdiv'
    exact .inr ⟨by omega, hsucc⟩

/-- Frames are counted down to the next cycle. -/
theorem checked_frames (h : Timed c time n command) (hpos : 0 < c.interval)
    (hframes : c.isIntervalFrames = true) : Checked c time n (checkCycle (time n) command) := by
  have hremaining := h.remaining hframes hpos
  have hbase := h.base
  have hrun : checkCycle (time n) command =
      if command.intervalRemainingFrames - 1 ≤ 0 then
        (true, { command with
          intervalRemainingFrames := command.interval, baseTimeMillis := time n })
      else (false, { command with
        intervalRemainingFrames := command.intervalRemainingFrames - 1 }) := by
    rw [checkCycle, if_pos (by rw [h.settings.interval]; exact hpos),
      if_pos (by rw [h.settings.isIntervalFrames]; exact hframes)]
  obtain ⟨k, hk⟩ := Int.eq_ofNat_of_zero_le hpos.le
  have hcycle : ∀ i, cycle c time i = ((i / k : ℕ) : ℤ) := fun i => by
    rw [cycle, if_neg (by omega), if_pos hframes, hk, Int.natCast_ediv]
  have horigin : ∀ i, origin c time i = time (i - i % k) := fun i => by
    rw [origin, if_neg (by omega), if_pos hframes, hk, Int.toNat_natCast]
  rw [hrun]
  rcases Nat.eq_zero_or_pos n with rfl | hn
  · rw [if_pos rfl] at hremaining
    rw [if_pos (by omega)]
    refine ⟨fun hlt => absurd hlt (by decide), ?_, fun _ _ => ?_⟩
    · rw [horigin, Nat.zero_sub]
    · rw [← h.settings.interval, Int.natCast_zero, Int.zero_emod, Int.sub_zero]
  rw [if_neg (by omega), hk, ← Int.natCast_emod] at hremaining
  rw [if_neg (by omega)] at hbase
  rcases div_pred_cases (k := k) hn with ⟨hzero, hlast, hdiv⟩ | ⟨hmod, hdiv⟩
  · rw [if_pos (by omega)]
    refine ⟨fun _ => iff_of_true rfl ?_, ?_, fun _ _ => ?_⟩
    · rw [opens_iff hn, hcycle, hcycle, hdiv]
      omega
    · rw [horigin, hzero, Nat.sub_zero]
    · rw [hk, ← Int.natCast_emod, hzero, ← hk]
      exact h.settings.interval.trans (Int.sub_zero _).symm
  · have hlt : n % k < k := Nat.mod_lt _ (by omega)
    rw [if_neg (by omega)]
    refine ⟨fun _ => iff_of_false Bool.false_ne_true ?_, ?_, fun _ _ => ?_⟩
    · rw [opens_iff hn, hcycle, hcycle, hdiv, not_not]
    · have hle : (n - 1) % k ≤ n - 1 := Nat.mod_le _ _
      rw [horigin, show n - n % k = n - 1 - (n - 1) % k by omega, ← horigin]
      exact hbase
    · rw [hk, ← Int.natCast_emod, hmod]
      dsimp only
      omega

theorem checked_millis (ht : Forward c time) (h : Timed c time n command) (hpos : 0 < c.interval)
    (hmillis : c.isIntervalFrames = false) : Checked c time n (checkCycle (time n) command) := by
  have hne : ¬ c.interval = 0 := by omega
  have hframes : ¬ c.isIntervalFrames = true := by rw [hmillis]; decide
  have hcycle : ∀ i, cycle c time i = (time i - c.baseTimeMillis) / c.interval := fun i => by
    rw [cycle, if_neg hne, if_neg hframes]
  have horigin : ∀ i, origin c time i = c.baseTimeMillis + cycle c time i * c.interval :=
    fun i => by
    rw [origin, if_neg hne, if_neg hframes]
  -- the base time is that of some cycle, and has passed
  obtain ⟨k, hk, hlow⟩ : ∃ k, command.baseTimeMillis = c.baseTimeMillis + k * c.interval ∧
      command.baseTimeMillis ≤ time n := by
    rw [h.base]
    split_ifs with hn
    · exact ⟨0, by rw [Int.zero_mul, Int.add_zero], ht.base_le n⟩
    · refine ⟨cycle c time (n - 1), horigin _, ?_⟩
      have hdiv := Int.ediv_mul_le (time (n - 1) - c.baseTimeMillis) hne
      have htime := ht.mono (Nat.sub_le n 1)
      rw [horigin, hcycle]
      omega
  have hquotient : (time n - command.baseTimeMillis) / c.interval = cycle c time n - k := by
    have hshift : time n - command.baseTimeMillis =
        time n - c.baseTimeMillis + (-k) * c.interval := by
      rw [hk]
      ring
    rw [hshift, Int.add_mul_ediv_right _ _ hne, hcycle]
    rfl
  have hinterval := h.settings.interval
  have hrun : checkCycle (time n) command =
      (decide (command.interval ≤ time n - command.baseTimeMillis), { command with
        baseTimeMillis := command.baseTimeMillis +
          (time n - command.baseTimeMillis) / command.interval * command.interval }) := by
    rw [checkCycle, if_pos (by rw [hinterval]; exact hpos),
      if_neg (by rw [h.settings.isIntervalFrames]; exact hframes),
      forwardBase_eq (by rw [hinterval]; exact hpos) _ hlow (Nat.lt_succ_self _)]
  rw [hrun]
  refine ⟨fun hn => ?_, ?_, fun himpossible => absurd himpossible hframes⟩
  · -- the cycle of the last flight loop is over when an interval has passed since it started
    have hbase := h.base
    have hquotient' := Int.ediv_nonneg (Int.sub_nonneg_of_le hlow) hpos.le
    rw [if_neg (by omega), hk, horigin] at hbase
    have hcycle' : k = cycle c time (n - 1) := Int.eq_of_mul_eq_mul_right hne (by omega)
    dsimp only
    rw [opens_iff hn, decide_eq_true_eq, hinterval, ← hcycle', ← Int.one_mul c.interval,
      ← Int.le_ediv_iff_mul_le hpos, hquotient]
    rw [hquotient] at hquotient'
    omega
  · rw [horigin]
    dsimp only
    rw [hinterval, hquotient, hk]
    ring

/-- **What the check for the next cycle does.** -/
theorem checkCycle_checked (hc : Fresh c) (ht : Forward c time) (h : Timed c time n command) :
    Checked c time n (checkCycle (time n) command) := by
  have hinterval := hc.interval
  by_cases hzero : c.interval = 0
  · exact checked_once h hzero
  · cases hframes : c.isIntervalFrames with
    | true => exact checked_frames h (by omega) hframes
    | false => exact checked_millis ht h (by omega) hframes

theorem origin_le (hc : Fresh c) (ht : Forward c time) (i : ℕ) : origin c time i ≤ time i := by
  have hinterval := hc.interval
  unfold origin
  split_ifs with hzero hframes
  · exact ht.base_le i
  · exact ht.mono (Nat.sub_le _ _)
  · have hdiv := Int.ediv_mul_le (time i - c.baseTimeMillis) hzero
    rw [cycle, if_neg hzero, if_neg hframes]
    omega

theorem elapsed_nonneg (hc : Fresh c) (ht : Forward c time) (i : ℕ) : 0 ≤ elapsed c time i := by
  unfold elapsed
  split_ifs
  · exact Int.natCast_nonneg _
  · exact Int.sub_nonneg_of_le (origin_le hc ht i)

/-- A flight loop in the rest of a cycle that was completed does not belong to the plan. -/
theorem not_active_iff (hn : 0 < n) (h : ¬ Opens c time n) :
    ¬ Active c time n ↔ ∃ j < n, cycle c time j = cycle c time (n - 1) ∧ Reaches c time j := by
  rw [opens_iff hn, not_not] at h
  unfold Active
  rw [h]
  push Not
  rfl

theorem plan_eq_none (h : ¬ Active c time n) : plan c time n = none := if_neg h

/-- The target values are submitted when the duration was reached. -/
theorem completes_iff (hc : Fresh c) {update : Bool} :
    Frame.completes ⟨c.method, c.monitorMode, update,
      if c.method = .immediate then 1 else elapsed c time n / (c.duration : ℚ)⟩ = true ↔
        Reaches c time n := by
  have hpos : (0 : ℚ) < c.duration := by exact_mod_cast hc.duration
  unfold Frame.completes Reaches
  by_cases himmediate : c.method = .immediate
  · simp [himmediate]
  · simp only [himmediate, Bool.or_eq_true, decide_eq_true_eq, false_or, if_false]
    rw [one_le_div hpos]
    exact_mod_cast Iff.rfl

theorem findDatarefs_targets (xp : DrmuXp) (datarefs : List DrmuTarget) :
    (findDatarefs xp datarefs).1.map target = datarefs.map target := by
  induction datarefs with
  | nil => rfl
  | cons dataref rest ih =>
    rw [findDatarefs]
    split
    · rfl
    · split_ifs
      · rfl
      · exact congrArg (target dataref :: ·) ih

theorem submitValues_target (frame : Frame) (dataref : DrmuTarget) (values : DrmuValues)
    (completed copied : Bool) :
    target (submitValues xp frame dataref values completed copied).dataref = target dataref ∧
      (submitValues xp frame dataref values completed copied).completed = completed ∧
      ((submitValues xp frame dataref values completed copied).success = true →
        (submitValues xp frame dataref values completed copied).written =
          [{ target dataref with values := values }]) := by
  unfold submitValues
  dsimp only
  split_ifs
  · exact ⟨rfl, rfl, fun h => nomatch h⟩
  · split
    · exact ⟨rfl, rfl, fun h => nomatch h⟩
    · exact ⟨rfl, rfl, fun _ => rfl⟩
  · exact ⟨rfl, rfl, fun _ => rfl⟩

theorem updateBase_target {frame : Frame} {dataref dataref' : DrmuTarget}
    (h : updateBase xp frame dataref = some dataref') : target dataref' = target dataref := by
  unfold updateBase at h
  split_ifs at h
  · cases hbase : dataref.baseValues with
    | none =>
      rw [hbase] at h
      exact nomatch h
    | some base =>
      rw [hbase] at h
      cases hread : readDataref xp dataref base with
      | none =>
        simp only [Option.bind_eq_bind, Option.bind_some, hread, Option.bind_none] at h
        exact nomatch h
      | some values =>
        simp only [Option.bind_eq_bind, Option.bind_some, hread] at h
        split_ifs at h
        cases h
        rfl
  · cases h
    rfl

/-- What a round does that is successful: the dataref is written once, with the target values if
they complete the cycle. -/
theorem updateDataref_spec (frame : Frame) (dataref : DrmuTarget) :
    target (updateDataref floats xp frame dataref).dataref = target dataref ∧
      ((updateDataref floats xp frame dataref).success = true →
        (updateDataref floats xp frame dataref).completed = frame.completes ∧
          ∃ values, (updateDataref floats xp frame dataref).written =
              [{ target dataref with values := values }] ∧
            (frame.completes = true → values = dataref.targetValues)) := by
  unfold updateDataref
  cases hbase : updateBase xp frame dataref with
  | none => exact ⟨rfl, fun h => nomatch h⟩
  | some based =>
    have htarget := updateBase_target hbase
    have hsubmit : ∀ d : DrmuTarget, target d = target based → ∀ values completed copied,
        completed = frame.completes → (frame.completes = true → values = based.targetValues) →
        target (submitValues xp frame d values completed copied).dataref = target dataref ∧
          ((submitValues xp frame d values completed copied).success = true →
            (submitValues xp frame d values completed copied).completed = frame.completes ∧
              ∃ values', (submitValues xp frame d values completed copied).written =
                  [{ target dataref with values := values' }] ∧
                (frame.completes = true → values' = dataref.targetValues)) := by
      intro d hd values completed copied hcompleted hvalues
      obtain ⟨hsame, hdone, hwritten⟩ := @submitValues_target xp frame d values completed copied
      rw [hd, htarget] at hsame hwritten
      refine ⟨hsame, fun hsuccess => ⟨hdone.trans hcompleted, values, hwritten hsuccess,
        fun hyes => ?_⟩⟩
      exact (hvalues hyes).trans (congrArg DrmuWrite.values htarget)
    dsimp only
    split_ifs with hcompletes hmonitor
    · cases copyTarget based with
      | some buffer =>
        exact hsubmit { based with bufferValues := buffer } rfl _ _ _ hcompletes.symm fun _ => rfl
      | none => exact hsubmit _ rfl _ _ _ hcompletes.symm fun _ => rfl
    · exact hsubmit _ rfl _ _ _ hcompletes.symm fun _ => rfl
    · cases calculateLinearValues floats based frame.progress with
      | some buffer =>
        exact hsubmit { based with bufferValues := buffer } rfl _ _ _
          (Bool.eq_false_iff.2 hcompletes).symm fun hyes => absurd hyes hcompletes
      | none => exact ⟨htarget, fun h => nomatch h⟩

theorem updateDatarefs_targets (frame : Frame) (datarefs : List DrmuTarget) :
    (updateDatarefs floats xp frame datarefs).1.map target = datarefs.map target := by
  induction datarefs with
  | nil => rfl
  | cons dataref rest ih => exact congrArg₂ List.cons (updateDataref_spec frame dataref).1 ih

/-- Every dataref is written once, in order, and completely with the target values in the end. -/
theorem updateDatarefs_written {frame : Frame} {datarefs : List DrmuTarget}
    (h : (updateDatarefs floats xp frame datarefs).2.2.2 = true) :
    List.Forall₂ (fun d w => ∃ values, w = { target d with values := values } ∧
        (frame.completes = true → values = d.targetValues))
      datarefs (updateDatarefs floats xp frame datarefs).2.1 := by
  induction datarefs with
  | nil => exact .nil
  | cons dataref rest ih =>
    obtain ⟨hsuccess, hrest⟩ := Bool.and_eq_true_iff.1 h
    obtain ⟨-, values, hwritten, hvalues⟩ := (updateDataref_spec frame dataref).2 hsuccess
    change List.Forall₂ _ _ ((updateDataref floats xp frame dataref).written ++ _)
    rw [hwritten]
    exact .cons ⟨values, rfl, hvalues⟩ (ih hrest)

theorem updateDatarefs_completed {frame : Frame} {datarefs : List DrmuTarget} (hne : datarefs ≠ [])
    (h : (updateDatarefs floats xp frame datarefs).2.2.2 = true) :
    (updateDatarefs floats xp frame datarefs).2.2.1 = frame.completes := by
  induction datarefs with
  | nil => exact absurd rfl hne
  | cons dataref rest ih =>
    obtain ⟨hsuccess, hrest⟩ := Bool.and_eq_true_iff.1 h
    have hcompleted := ((updateDataref_spec frame dataref).2 hsuccess).1
    by_cases hnil : rest = []
    · subst hnil
      exact (Bool.or_false _).trans hcompleted
    · change ((updateDataref floats xp frame dataref).completed || _) = _
      rw [hcompleted, ih hnil hrest, Bool.or_self]

/-- The part before the timing: the first flight loop finds the datarefs. -/
theorem ensureInitialized_eq (hfresh : c.hasFetchBasedDatarefs = s.command.hasFetchBasedDatarefs)
    (h : Follows t c time n s)
    (hworks :
      (if (ensureInitialized xp s).1 then runCycle floats xp (time n) (ensureInitialized xp s).2
      else (ensureInitialized xp s).2.markFailed).command.failed = false) :
    ∃ port, port.queues = s.port.queues ∧ ensureInitialized xp s = (true,
      ⟨{ s.command with
          initialized := true
          updateBaseValues := decide (n = 0) && c.hasFetchBasedDatarefs
          datarefs :=
            if n = 0 then (findDatarefs xp s.command.datarefs).1 else s.command.datarefs },
        port, s.written⟩) := by
  rcases Nat.eq_zero_or_pos n with rfl | hn
  · have hinit : s.command.initialized = false := h.initialized
    rw [hfresh]
    unfold ensureInitialized initializeCommand at hworks ⊢
    simp only [hinit, Bool.false_eq_true, if_false] at hworks ⊢
    cases hfind : (findDatarefs xp s.command.datarefs).2 with
    | some text =>
      rw [hfind] at hworks
      exact nomatch hworks
    | none => exact ⟨s.port.send .confirm s.command.channelId currentTimeReference none, rfl, rfl⟩
  · have hinit : s.command.initialized = true := h.initialized.trans (decide_eq_true hn)
    have hnoUpdate := h.noUpdate
    refine ⟨s.port, rfl, ?_⟩
    rw [ensureInitialized, if_pos hinit, if_neg (by omega), decide_eq_false (by omega),
      Bool.false_and, ← hinit, ← hnoUpdate]

theorem progressOf_eq (hc : Fresh c) (ht : Forward c time) (hsettings : Settings c command)
    (hbase : command.baseTimeMillis = origin c time n)
    (hframes : c.method ≠ .immediate → c.isDurationFrames = true →
      command.durationFrames + 1 = elapsed c time n) :
    ∃ frames, progressOf (time n) command =
        (if c.method = .immediate then 1 else elapsed c time n / (c.duration : ℚ),
          { command with durationFrames := frames }) ∧
      (c.method ≠ .immediate → c.isDurationFrames = true → frames = elapsed c time n) := by
  have hnonneg : 0 ≤ elapsed c time n / (c.duration : ℚ) := by
    have hduration := hc.duration
    exact div_nonneg (by exact_mod_cast elapsed_nonneg hc ht n) (by exact_mod_cast hduration.le)
  have helapsed : command.isDurationFrames = false →
      max 0 (time n - command.baseTimeMillis) = elapsed c time n := by
    intro hmillis
    rw [elapsed, ← hsettings.isDurationFrames, hmillis, if_neg Bool.false_ne_true, hbase]
    exact max_eq_right (Int.sub_nonneg_of_le (origin_le hc ht n))
  rw [← hsettings.method, ← hsettings.isDurationFrames] at hframes ⊢
  rw [← hsettings.duration] at hnonneg ⊢
  unfold progressOf
  by_cases himmediate : command.method = .immediate
  · rw [if_pos himmediate, if_pos himmediate]
    exact ⟨command.durationFrames, rfl, fun hne => absurd himmediate hne⟩
  · rw [if_neg himmediate, if_neg himmediate]
    by_cases hduration : command.isDurationFrames = true
    · have hcount := hframes himmediate hduration
      rw [if_pos hduration, hcount, max_eq_right hnonneg]
      exact ⟨_, rfl, fun _ _ => rfl⟩
    · rw [if_neg hduration, helapsed (Bool.eq_false_iff.2 hduration), max_eq_right hnonneg]
      exact ⟨command.durationFrames, rfl, fun _ hframes => absurd hframes hduration⟩

theorem updateData_works {now : ℤ} {progress : ℚ} {frame : Frame}
    (hframe : frame = ⟨s.command.method, s.command.monitorMode, s.command.updateBaseValues,
      progress⟩)
    (hworks : (updateData floats xp now progress s).command.failed = false) :
    (updateDatarefs floats xp frame s.command.datarefs).2.2.2 = true ∧
      updateData floats xp now progress s = ⟨{ s.command with
          timestamp := now
          datarefs := (updateDatarefs floats xp frame s.command.datarefs).1
          cycleComplete := s.command.cycleComplete ||
            (updateDatarefs floats xp frame s.command.datarefs).2.2.1
          done := if (updateDatarefs floats xp frame s.command.datarefs).2.2.1 then
            decide (s.command.interval ≤ 0) else s.command.done
          updateBaseValues := false },
        s.port, s.written ++ (updateDatarefs floats xp frame s.command.datarefs).2.1⟩ := by
  subst hframe
  unfold updateData at hworks ⊢
  by_cases hlocked : (s.command.hasProxiedDatarefs && decide (xp.lockRegistry ≠ .none)) = true
  · rw [if_pos hlocked] at hworks
    exact nomatch hworks
  rw [if_neg hlocked] at hworks ⊢
  by_cases hsuccess : (updateDatarefs floats xp ⟨s.command.method, s.command.monitorMode,
      s.command.updateBaseValues, progress⟩ s.command.datarefs).2.2.2 = true
  · refine ⟨hsuccess, ?_⟩
    dsimp only
    rw [if_pos hsuccess]
    rfl
  · dsimp only at hworks
    rw [if_neg hsuccess] at hworks
    exact nomatch hworks

/-- The datarefs that a flight loop works on: the first one has found them. -/
def present (xp : DrmuXp) (n : ℕ) (s : State) : List DrmuTarget :=
  if n = 0 then (findDatarefs xp s.command.datarefs).1 else s.command.datarefs

theorem Follows.present_targets (h : Follows t c time n s) :
    (present xp n s).map target = c.datarefs.map target := by
  unfold present
  split_ifs
  · exact (findDatarefs_targets xp _).trans h.targets
  · exact h.targets

theorem Follows.present_ne_nil (hc : Fresh c) (h : Follows t c time n s) : present xp n s ≠ [] := by
  intro hnil
  have htargets := @Follows.present_targets _ _ _ _ _ xp h
  rw [hnil, List.map_nil] at htargets
  exact hc.datarefs (List.map_eq_nil_iff.1 htargets.symm)

/-- What a flight loop does: the command goes on to follow the plan, and writes what it says. -/
def Proceeds (t : ℕ) (c : CommandDrmu) (time : ℕ → ℤ) (floats : DrmuFloats) (xp : DrmuXp) (n : ℕ)
    (s s' : State) : Prop :=
  Follows t c time (n + 1) s' ∧
    (s'.command.datarefs, s'.written) = advance floats xp (present xp n s, s.written)
      (plan c time n) ∧
    ∀ frame, plan c time n = some frame →
      (updateDatarefs floats xp frame (present xp n s)).2.2.2 = true

/-- A command that is done does nothing any more. -/
theorem Follows.proceeds_done (h : Follows t c time n s) (hdone : s.command.done = true) :
    Proceeds t c time floats xp n s s := by
  obtain ⟨hcomplete, hzero⟩ := Bool.and_eq_true_iff.1 (h.done.symm.trans hdone)
  have hzero := of_decide_eq_true hzero
  obtain ⟨j, hj, hcycle, hreaches⟩ := h.complete.1 hcomplete
  have hsame : ∀ i, cycle c time i = 0 := fun i => by rw [cycle, if_pos hzero]
  have hactive : ¬ Active c time n := fun hactive =>
    hactive j hj (by rw [hsame, hsame]) hreaches
  refine ⟨⟨⟨h.timed.settings, ?_, fun _ hpos => ?_⟩, h.working, ?_, ?_,
    fun _ _ hopen => ?_, h.noUpdate, h.done, h.targets, h.scheduled⟩, ?_⟩
  · rw [h.timed.base, origin, origin, if_pos hzero, if_pos hzero, ite_self, ite_self]
  · omega
  · rw [h.initialized, decide_eq_true (by omega), decide_eq_true (by omega)]
  · exact iff_of_true hcomplete ⟨j, by omega, by rw [hsame, hsame], hreaches⟩
  · rw [hcomplete] at hopen
    exact nomatch hopen
  · rw [plan_eq_none hactive, present, if_neg (by omega)]
    exact ⟨rfl, fun _ himpossible => nomatch himpossible⟩

theorem Timed.next (hsettings : Settings c command)
    (hbase : command.baseTimeMillis = origin c time n)
    (hremaining : c.isIntervalFrames = true → 0 < c.interval →
      command.intervalRemainingFrames = c.interval - n % c.interval) :
        Timed c time (n + 1) command where
  settings := hsettings
  base := by rw [if_neg (Nat.succ_ne_zero n)]; exact hbase
  remaining hframes hpos := by rw [if_neg (Nat.succ_ne_zero n)]; exact hremaining hframes hpos

theorem Follows.skip {s' : State} (h : Follows t c time n s)
    (hcomplete : s.command.cycleComplete = true)
    (hopens : ¬ Opens c time n) (htimed : Timed c time (n + 1) s'.command)
    (hcommand : ∃ base remaining, s'.command = { s.command with
      baseTimeMillis := base, intervalRemainingFrames := remaining })
    (hport : s'.port.queues = s.port.queues) (hwritten : s'.written = s.written) :
    Proceeds t c time floats xp n s s' := by
  obtain ⟨base, remaining, hcommand⟩ := hcommand
  obtain ⟨j, hj, hcycle, hreaches⟩ := h.complete.1 hcomplete
  have hn : 0 < n := by omega
  have hactive : ¬ Active c time n := (not_active_iff hn hopens).2 ⟨j, hj, hcycle, hreaches⟩
  have hsame : cycle c time (n - 1) = cycle c time n := by
    rwa [opens_iff hn, not_not] at hopens
  refine ⟨⟨htimed, ?_, ?_, ?_, fun _ _ hopen => ?_, ?_, ?_, ?_, ?_⟩, ?_⟩
  · rw [hcommand]
    exact h.working
  · rw [hcommand, decide_eq_true (Nat.succ_pos n)]
    exact h.initialized.trans (decide_eq_true hn)
  · rw [hcommand]
    exact iff_of_true hcomplete ⟨j, by omega, hcycle.trans hsame, hreaches⟩
  · rw [hcommand] at hopen
    exact nomatch hcomplete.symm.trans hopen
  · rw [hcommand]
    exact h.noUpdate
  · rw [hcommand]
    exact h.done
  · rw [hcommand]
    exact h.targets
  · rw [hcommand, hport]
    exact h.scheduled
  · rw [plan_eq_none hactive, present, if_neg (by omega), hcommand, hwritten]
    exact ⟨rfl, fun _ himpossible => nomatch himpossible⟩

/-- The command when its `n`-th flight loop writes, on the datarefs `ds` -/
def underway (c : CommandDrmu) (time : ℕ → ℤ) (n : ℕ) (ds : List DrmuTarget) (remaining frames : ℤ)
    (command : CommandDrmu) : CommandDrmu :=
  { command with
    initialized := true
    datarefs := ds
    baseTimeMillis := origin c time n
    intervalRemainingFrames := remaining
    cycleComplete := false
    durationFrames := frames
    updateBaseValues := c.hasFetchBasedDatarefs && decide (Opens c time n) }

/-- Where a cycle starts or goes on -/
theorem Follows.underway (hc : Fresh c) (ht : Forward c time) (h : Follows t c time n s)
    {restart : Bool} (hrestart : 0 < n → (restart = true ↔ Opens c time n))
    (hopen : s.command.cycleComplete = false ∨ restart = true) (ds : List DrmuTarget)
    (remaining : ℤ) :
    ∃ frames, (if restart then restartCycle else id) { s.command with
          initialized := true
          updateBaseValues := decide (n = 0) && c.hasFetchBasedDatarefs
          datarefs := ds
          baseTimeMillis := origin c time n
          intervalRemainingFrames := remaining } =
        DrmuCycle.underway c time n ds remaining frames s.command ∧
      (c.method ≠ .immediate → c.isDurationFrames = true → frames + 1 = elapsed c time n) := by
  have hmono := cycle_mono hc ht
  have hfetch := h.timed.settings.hasFetchBasedDatarefs
  have hzero : n = 0 → Opens c time n := .inl
  cases restart with
  | true =>
    have hopens : Opens c time n := by
      rcases Nat.eq_zero_or_pos n with hn | hn
      · exact hzero hn
      · exact (hrestart hn).1 rfl
    refine ⟨0, ?_, fun _ hduration => ?_⟩
    · rw [DrmuCycle.underway, decide_eq_true hopens, Bool.and_true, ← hfetch]
      rfl
    · rw [elapsed, if_pos hduration, count_opens hmono hopens]
      rfl
  | false =>
    have hincomplete : s.command.cycleComplete = false := hopen.resolve_right Bool.false_ne_true
    have hopens : Opens c time n ↔ n = 0 := by
      refine ⟨fun hopens => ?_, hzero⟩
      by_contra hn
      exact Bool.false_ne_true ((hrestart (Nat.pos_of_ne_zero hn)).2 hopens)
    refine ⟨s.command.durationFrames, ?_, fun hmethod hduration => ?_⟩
    · rw [if_neg Bool.false_ne_true, DrmuCycle.underway, decide_eq_decide.2 hopens, Bool.and_comm,
        ← hincomplete]
      rfl
    · rw [elapsed, if_pos hduration, h.frames hmethod hduration hincomplete]
      rcases Nat.eq_zero_or_pos n with rfl | hn
      · rw [count_opens hmono (hzero rfl)]
        rfl
      · have hsame : cycle c time (n - 1) = cycle c time n := by
          have hnot : ¬ Opens c time n := by
            rw [hopens]
            omega
          rwa [opens_iff hn, not_not] at hnot
        rw [hsame, Nat.count_succ, if_pos rfl]
        rfl

theorem Follows.write (hc : Fresh c) (ht : Forward c time) (h : Follows t c time n s)
    (hscheduled : t ∈ s.port.queues s.command.phase) (hnotDone : s.command.done = false)
    (hactive : Active c time n) {port : Port} (hport : port.queues = s.port.queues)
    {remaining frames : ℤ}
    (hremaining : c.isIntervalFrames = true → 0 < c.interval →
      remaining = c.interval - n % c.interval)
    (hframes : c.method ≠ .immediate → c.isDurationFrames = true → frames + 1 = elapsed c time n)
    {p : ℚ × CommandDrmu}
    (hp : p = progressOf (time n)
      (DrmuCycle.underway c time n (present xp n s) remaining frames s.command))
    (hworks : (updateData floats xp (time n) p.1 ⟨p.2, port, s.written⟩).command.failed = false) :
    Proceeds t c time floats xp n s (updateData floats xp (time n) p.1 ⟨p.2, port, s.written⟩) := by
  have hsettings : Settings c
      (DrmuCycle.underway c time n (present xp n s) remaining frames s.command) :=
    h.timed.settings.trans ⟨rfl, rfl, rfl, rfl, rfl, rfl, rfl⟩
  obtain ⟨frames', hprogress, hcount⟩ := progressOf_eq hc ht hsettings rfl hframes
  rw [hprogress] at hp
  subst hp
  have hplan : plan c time n = some ⟨c.method, c.monitorMode,
      c.hasFetchBasedDatarefs && decide (Opens c time n),
      if c.method = .immediate then 1 else elapsed c time n / (c.duration : ℚ)⟩ := if_pos hactive
  set frame : Frame := ⟨c.method, c.monitorMode, c.hasFetchBasedDatarefs && decide (Opens c time n),
    if c.method = .immediate then 1 else elapsed c time n / (c.duration : ℚ)⟩ with hframe
  obtain ⟨hsuccess, hupdate⟩ := @updateData_works _ floats xp _ _ frame (by
    rw [hframe, ← h.timed.settings.method, ← h.timed.settings.monitorMode]
    rfl) hworks
  rw [hupdate]
  have hne : present xp n s ≠ [] := h.present_ne_nil hc
  have hcompleted : (updateDatarefs floats xp frame (present xp n s)).2.2.1 = frame.completes :=
    updateDatarefs_completed hne hsuccess
  have hreaches : frame.completes = true ↔ Reaches c time n := completes_iff hc
  change Proceeds t c time floats xp n s
    ⟨{ DrmuCycle.underway c time n (present xp n s) remaining frames
      s.command with
    durationFrames := frames'
    timestamp := time n
    datarefs := (updateDatarefs floats xp frame (present xp n s)).1
    cycleComplete := (updateDatarefs floats xp frame (present xp n s)).2.2.1
    done := if (updateDatarefs floats xp frame (present xp n s)).2.2.1 then
      decide (s.command.interval ≤ 0) else s.command.done
    updateBaseValues := false }, port,
    s.written ++ (updateDatarefs floats xp frame (present xp n s)).2.1⟩
  rw [hcompleted]
  refine ⟨⟨.next (hsettings.trans ⟨rfl, rfl, rfl, rfl, rfl, rfl, rfl⟩) rfl hremaining, h.working,
    (decide_eq_true (Nat.succ_pos n)).symm, ⟨fun hyes => ?_, ?_⟩, fun hmethod hduration _ =>
      ?_, rfl, ?_, ?_,
    .inl ?_⟩, ?_⟩
  · exact ⟨n, Nat.lt_succ_self n, rfl, hreaches.1 hyes⟩
  · rintro ⟨j, hj, hcycle, hj'⟩
    refine hreaches.2 ?_
    rcases Nat.lt_succ_iff_lt_or_eq.1 hj with hlt | rfl
    · exact absurd hj' (hactive j hlt hcycle)
    · exact hj'
  · exact (hcount hmethod hduration).trans (if_pos hduration)
  · have hinterval := hc.interval
    dsimp only
    rw [hnotDone, h.timed.settings.interval]
    cases frame.completes with
    | false => rfl
    | true =>
      rw [if_pos rfl, Bool.true_and]
      exact decide_eq_decide.2 (by omega)
  · exact (updateDatarefs_targets frame _).trans h.present_targets
  · dsimp only
    rw [hport]
    exact hscheduled
  · rw [hplan]
    refine ⟨rfl, fun frame' heq => ?_⟩
    cases heq
    exact hsuccess

theorem Follows.runCycle (hc : Fresh c) (ht : Forward c time) (h : Follows t c time n s)
    (hscheduled : t ∈ s.port.queues s.command.phase) (hnotDone : s.command.done = false)
    {port : Port}
    (hport : port.queues = s.port.queues) {command' : CommandDrmu}
    (hcommand : command' = { s.command with
      initialized := true
      updateBaseValues := decide (n = 0) && c.hasFetchBasedDatarefs
      datarefs := present xp n s })
    (hworks : (runCycle floats xp (time n) ⟨command', port, s.written⟩).command.failed = false) :
    Proceeds t c time floats xp n s (runCycle floats xp (time n) ⟨command', port, s.written⟩) := by
  have htimed : Timed c time n command' := by
    rw [hcommand]
    exact ⟨h.timed.settings.trans ⟨rfl, rfl, rfl, rfl, rfl, rfl, rfl⟩, h.timed.base,
      h.timed.remaining⟩
  have hchecked := checkCycle_checked hc ht htimed
  have hframe := checkCycle_frame (time n) command'
  unfold DrmuCycle.runCycle at hworks ⊢
  by_cases hnow : time n < 0
  · rw [if_pos hnow] at hworks
    exact nomatch hworks
  rw [if_neg hnow] at hworks ⊢
  generalize checkCycle (time n) command' = r at hchecked hframe hworks ⊢
  obtain ⟨restart, checked⟩ := r
  have hbase : checked.baseTimeMillis = origin c time n := hchecked.base
  obtain ⟨remaining, hremaining, rfl⟩ : ∃ remaining,
      (c.isIntervalFrames = true → 0 < c.interval → remaining = c.interval - n % c.interval) ∧
        checked = { command' with
          baseTimeMillis := origin c time n, intervalRemainingFrames := remaining } :=
    ⟨checked.intervalRemainingFrames, hchecked.remaining, by rw [← hbase]; exact hframe⟩
  have hrestart : 0 < n → (restart = true ↔ Opens c time n) := hchecked.restart
  subst hcommand
  dsimp only at hworks ⊢
  by_cases hskip : (s.command.cycleComplete && !restart) = true
  · rw [if_pos hskip]
    obtain ⟨hcomplete, hno⟩ := Bool.and_eq_true_iff.1 hskip
    obtain ⟨j, hj, -⟩ := h.complete.1 hcomplete
    have hn : n ≠ 0 := by omega
    have hopens : ¬ Opens c time n := by
      rw [Bool.not_eq_true'] at hno
      rw [← hrestart (by omega), hno]
      exact Bool.false_ne_true
    have hinit := h.initialized
    have hnoUpdate := h.noUpdate
    rw [decide_eq_true (by omega)] at hinit
    refine h.skip hcomplete hopens
      (.next (htimed.settings.trans ⟨rfl, rfl, rfl, rfl, rfl, rfl, rfl⟩) rfl
      hremaining) ⟨origin c time n, remaining, ?_⟩ hport rfl
    rw [present, if_neg hn, decide_eq_false hn, Bool.false_and, ← hinit, ← hnoUpdate]
  rw [if_neg hskip] at hworks ⊢
  -- the cycle was not completed, or a new one starts
  have hopen : s.command.cycleComplete = false ∨ restart = true := by
    cases hcomplete : s.command.cycleComplete with
    | false => exact .inl rfl
    | true =>
      rw [hcomplete, Bool.true_and, Bool.not_eq_true', Bool.not_eq_false] at hskip
      exact .inr hskip
  have hactive : Active c time n := by
    by_contra hnot
    have hopens : ¬ Opens c time n := fun hopens => hnot (hopens.active (cycle_mono hc ht))
    have hn : 0 < n := by
      unfold Opens at hopens
      omega
    rcases hopen with hincomplete | hyes
    · rw [h.complete.2 ((not_active_iff hn hopens).1 hnot)] at hincomplete
      exact nomatch hincomplete
    · exact hopens ((hrestart hn).1 hyes)
  obtain ⟨frames, hunderway, hframes⟩ := h.underway hc ht hrestart hopen (present xp n s) remaining
  have happly : ∀ command, (if restart = true then restartCycle command else command) =
      (if restart then restartCycle else id) command := by
    intro command
    cases restart <;> rfl
  rw [happly, hunderway] at hworks ⊢
  exact h.write hc ht hscheduled hnotDone hactive hport hremaining hframes rfl hworks

/-- **A flight loop follows the plan**, if it does not fail. -/
theorem Follows.flightloop (hc : Fresh c) (ht : Forward c time) (h : Follows t c time n s)
    (hscheduled : t ∈ s.port.queues s.command.phase)
    (hworks : (processFlightloop floats xp (time n) s).command.failed = false) :
    Proceeds t c time floats xp n s (processFlightloop floats xp (time n) s) := by
  by_cases hdone : s.command.done = true
  · rw [processFlightloop, if_pos (by rw [hdone, Bool.or_true])]
    exact h.proceeds_done hdone
  have hready : ¬ (s.command.failed || s.command.done) = true := by
    rw [h.working, Bool.false_or]
    exact hdone
  rw [processFlightloop, if_neg hready] at hworks ⊢
  obtain ⟨port, hqueues, hinit⟩ :=
    ensureInitialized_eq h.timed.settings.hasFetchBasedDatarefs.symm h hworks
  rw [hinit] at hworks ⊢
  rw [if_pos rfl] at hworks ⊢
  exact h.runCycle hc ht hscheduled (Bool.eq_false_iff.2 hdone) hqueues rfl hworks

/-! ### Post-processing -/

/-- Monitor values are sent, unless that fails. -/
theorem submitMonitorData_cases (submitted : ErrorCode) (env : EncodeEnv DrmuValues)
    (willContinue : Bool) (s : State) :
    (submitMonitorData submitted env willContinue s).command.failed = true ∨
      ∃ timestamp sent, submitMonitorData submitted env willContinue s =
        ⟨{ s.command with timestamp := timestamp }, { s.port with sent := sent }, s.written⟩ := by
  unfold submitMonitorData
  by_cases hnone : s.command.monitorMode = .none
  · exact .inr ⟨s.command.timestamp, s.port.sent, if_pos hnone⟩
  dsimp only
  rw [if_neg hnone]
  cases Drqv.encodeAll env (s.command.datarefs.map monitored) with
  | error text => exact .inl rfl
  | ok out =>
    dsimp only
    by_cases hsubmitted : submitted ≠ .none
    · rw [if_pos hsubmitted]
      exact .inl rfl
    · rw [if_neg hsubmitted]
      exact .inr ⟨0, _, rfl⟩

theorem terminate_frame (lock : ErrorCode) (s : State) :
    ∃ channelId task port, (terminate lock s).2 =
      ⟨{ s.command with channelId := channelId, task := task }, port, s.written⟩ := ⟨_, _, _, rfl⟩

theorem processPost_frame {lock submitted : ErrorCode} {env : EncodeEnv DrmuValues}
    (hworking : s.command.failed = false)
    (hworks : (processPost lock submitted env s).command.failed = false) :
    ∃ timestamp channelId task port, processPost lock submitted env s =
        ⟨{ s.command with timestamp := timestamp, channelId := channelId, task := task },
          port, s.written⟩ ∧
      (s.command.done = true ∨ port.queues = s.port.queues) := by
  unfold processPost at hworks ⊢
  by_cases hidle : (!s.command.failed && (!s.command.initialized && !s.command.done)) = true
  · rw [if_pos hidle]
    exact ⟨s.command.timestamp, s.command.channelId, s.command.task, s.port, rfl, .inr rfl⟩
  rw [if_neg hidle] at hworks ⊢
  -- the command that is left once the monitor values were sent
  obtain ⟨s', hs', hcases⟩ : ∃ s', (if !s.command.failed && decide (0 < s.command.timestamp) then
        submitMonitorData submitted env (!s.command.done) s else s) = s' ∧
      (s'.command.failed = true ∨ ∃ timestamp sent, s' =
        ⟨{ s.command with timestamp := timestamp }, { s.port with sent := sent }, s.written⟩) := by
    refine ⟨_, rfl, ?_⟩
    split_ifs
    · exact submitMonitorData_cases _ _ _ _
    · exact .inr ⟨s.command.timestamp, s.port.sent, rfl⟩
  rw [hs'] at hworks ⊢
  dsimp only at hworks ⊢
  rcases hcases with hfailed | ⟨timestamp, sent, rfl⟩
  · obtain ⟨channelId, task, port, hterminate⟩ := terminate_frame lock (closeFailed s')
    have hclose : closeFailed s' = (s'.send .error currentTimeReference none).modify
        fun command => { command with done := true } := if_pos hfailed
    rw [if_pos (by rw [hclose]; rfl), hterminate, hclose] at hworks
    exact absurd (hworks.symm.trans hfailed) Bool.false_ne_true
  · have hclose : ∀ port, closeFailed ⟨{ s.command with timestamp := timestamp }, port, s.written⟩ =
        ⟨{ s.command with timestamp := timestamp }, port, s.written⟩ := by
      intro port
      rw [closeFailed, if_neg]
      dsimp only
      rw [hworking]
      exact Bool.false_ne_true
    rw [hclose]
    by_cases hdone : s.command.done = true
    · rw [if_pos hdone]
      exact ⟨timestamp, _, _, _, rfl, .inl hdone⟩
    · rw [if_neg hdone]
      exact ⟨timestamp, s.command.channelId, s.command.task, _, rfl, .inr rfl⟩

theorem Follows.post {lock submitted : ErrorCode} {env : EncodeEnv DrmuValues}
    (h : Follows t c time n s) (hscheduled : t ∈ s.port.queues s.command.phase)
    (hworks : (processPost lock submitted env s).command.failed = false) :
    Follows t c time n (processPost lock submitted env s) ∧
      (processPost lock submitted env s).command.datarefs = s.command.datarefs ∧
      (processPost lock submitted env s).written = s.written := by
  obtain ⟨timestamp, channelId, task, port, hpost, hcases⟩ := processPost_frame h.working hworks
  rw [hpost]
  refine ⟨⟨⟨h.timed.settings.trans ⟨rfl, rfl, rfl, rfl, rfl, rfl, rfl⟩, h.timed.base,
    h.timed.remaining⟩, h.working, h.initialized, h.complete, h.frames, h.noUpdate, h.done,
      h.targets, ?_⟩, rfl, rfl⟩
  rcases hcases with hdone | hqueues
  · exact .inr hdone
  · refine .inl ?_
    dsimp only
    rw [hqueues]
    exact hscheduled

end

/-! ### Whole runs -/

section

variable {t : ℕ} {c : CommandDrmu} {time : ℕ → ℤ} {n : ℕ} {s : State} {floats : DrmuFloats}
  {xps : ℕ → DrmuXp} {events : List Event}

/-- What the `i`-th flight loop writes, after the datarefs were found by the first one -/
def writes (c : CommandDrmu) (time : ℕ → ℤ) (floats : DrmuFloats) (xps : ℕ → DrmuXp) (i : ℕ) :
    List DrmuWrite :=
  match plan c time i with
  | none => []
  | some frame => (updateDatarefs floats (xps i) frame
      (performed c time floats xps (findDatarefs (xps 0) c.datarefs).1 i).1).2.1

theorem performed_written (n : ℕ) :
    (performed c time floats xps (findDatarefs (xps 0) c.datarefs).1 n).2 =
      (List.range n).flatMap (writes c time floats xps) := by
  induction n with
  | zero => rfl
  | succ n ih =>
    rw [List.range_succ, List.flatMap_append, ← ih, List.flatMap_singleton, performed, writes]
    cases plan c time n with
    | none => exact (List.append_nil _).symm
    | some frame => rfl

/-- A command that has failed does not recover. -/
theorem step_failed (event : Event) (h : s.command.failed = true) :
    (step floats t s event).command.failed = true := by
  unfold step
  split_ifs
  · cases event with
    | flightloop now xp =>
      dsimp only
      rw [processFlightloop, h, Bool.true_or, if_pos rfl]
      exact h
    | post lock submitted env =>
      dsimp only
      have hidle : (!s.command.failed && (!s.command.initialized && !s.command.done)) ≠ true := by
        rw [h]
        exact Bool.false_ne_true
      have hsubmit : ¬ (!s.command.failed && decide (0 < s.command.timestamp)) = true := by
        rw [h]
        exact Bool.false_ne_true
      have hclose : closeFailed s = (s.send .error currentTimeReference none).modify
        fun command => { command with done := true } := if_pos h
      rw [processPost, if_neg hidle, if_neg hsubmit]
      dsimp only
      rw [hclose, if_pos (show (State.modify _ _).command.done = true from rfl)]
      exact h
  · exact h

/-- The command after `n` flight loops has followed the plan. -/
structure Performs (t : ℕ) (c : CommandDrmu) (time : ℕ → ℤ) (floats : DrmuFloats) (xps : ℕ → DrmuXp)
    (n : ℕ) (s : State) : Prop where
  follows : Follows t c time n s
  datarefs : present (xps 0) n s =
    (performed c time floats xps (findDatarefs (xps 0) c.datarefs).1 n).1
  written : s.written = (performed c time floats xps (findDatarefs (xps 0) c.datarefs).1 n).2
  successful : ∀ i < n, ∀ frame, plan c time i = some frame →
    (updateDatarefs floats (xps i) frame
      (performed c time floats xps (findDatarefs (xps 0) c.datarefs).1 i).1).2.2.2 = true

theorem Performs.post {lock submitted : ErrorCode} {env : EncodeEnv DrmuValues}
    (h : Performs t c time floats xps n s)
    (hworks : (step floats t s (.post lock submitted env)).command.failed = false) :
    Performs t c time floats xps n (step floats t s (.post lock submitted env)) := by
  unfold step at hworks ⊢
  by_cases hscheduled : t ∈ s.port.queues s.command.phase
  · rw [if_pos hscheduled] at hworks ⊢
    obtain ⟨hfollows, hdatarefs, hwritten⟩ := h.follows.post hscheduled hworks
    refine ⟨hfollows, ?_, hwritten.trans h.written, h.successful⟩
    rw [← h.datarefs, present, present, hdatarefs]
  · rw [if_neg hscheduled]
    exact h

theorem Performs.flightloop (hc : Fresh c) (ht : Forward c time)
    (h : Performs t c time floats xps n s)
    (hworks : (step floats t s (.flightloop (time n) (xps n))).command.failed = false) :
    Performs t c time floats xps (n + 1) (step floats t s (.flightloop (time n) (xps n))) := by
  have hproceeds : Proceeds t c time floats (xps n) n s
      (step floats t s (.flightloop (time n) (xps n))) := by
    unfold step at hworks ⊢
    by_cases hscheduled : t ∈ s.port.queues s.command.phase
    · rw [if_pos hscheduled] at hworks ⊢
      exact h.follows.flightloop hc ht hscheduled hworks
    · rw [if_neg hscheduled]
      exact h.follows.proceeds_done (h.follows.scheduled.resolve_left hscheduled)
  have hpresent : present (xps n) n s =
      (performed c time floats xps (findDatarefs (xps 0) c.datarefs).1 n).1 := by
    rw [← h.datarefs]
    rcases Nat.eq_zero_or_pos n with rfl | hn
    · rfl
    · rw [present, present, if_neg (by omega), if_neg (by omega)]
  obtain ⟨hfollows, hadvance, hsuccess⟩ := hproceeds
  rw [hpresent, h.written] at hadvance
  rw [hpresent] at hsuccess
  refine ⟨hfollows, ?_, congrArg Prod.snd hadvance, fun i hi frame hframe => ?_⟩
  · rw [present, if_neg (Nat.succ_ne_zero n)]
    exact congrArg Prod.fst hadvance
  · rcases Nat.lt_succ_iff_lt_or_eq.1 hi with hlt | rfl
    · exact h.successful i hlt frame hframe
    · exact hsuccess frame hframe

/-- A command that did not fail has performed what was planned for its flight loops. -/
theorem run_performs (hc : Fresh c) (ht : Forward c time) (hcommand : s.command = c)
    (hscheduled : t ∈ s.port.queues s.command.phase) (hwritten : s.written = [])
    (events : List Event)
    {n : ℕ} (hloops : flightloops events = (List.range n).map fun i => (time i, xps i))
    (hworks : (run floats t s events).command.failed = false) :
    Performs t c time floats xps n (run floats t s events) := by
  induction events using List.reverseRecOn generalizing n with
  | nil =>
    obtain rfl : n = 0 := by
      have hlength := congrArg List.length hloops
      rw [List.length_map, List.length_range] at hlength
      exact hlength.symm
    subst hcommand
    refine ⟨⟨⟨⟨rfl, rfl, rfl, rfl, rfl, rfl, rfl⟩, rfl, fun _ _ => hc.remaining⟩,
      hc.failed, hc.initialized, ?_, fun _ _ _ => hc.frames, hc.noUpdate, ?_, rfl, .inl hscheduled⟩,
        rfl, hwritten, ?_⟩
    · refine iff_of_false ?_ ?_
      · change ¬ s.command.cycleComplete = true
        rw [hc.incomplete]
        exact Bool.false_ne_true
      · rintro ⟨j, hj, -⟩
        exact Nat.not_lt_zero j hj
    · change s.command.done = (s.command.cycleComplete && _)
      rw [hc.notDone, hc.incomplete, Bool.false_and]
    · intro i hi
      exact absurd hi (Nat.not_lt_zero i)
  | append_singleton events event ih =>
    have hrun : run floats t s (events ++ [event]) = step floats t (run floats t s events) event :=
      List.foldl_append
    rw [hrun] at hworks ⊢
    have hworked : (run floats t s events).command.failed = false := by
      rw [← Bool.not_eq_true]
      intro hfailed
      rw [step_failed event hfailed] at hworks
      exact absurd hworks.symm Bool.false_ne_true
    rw [flightloops, List.filterMap_append] at hloops
    cases event with
    | post lock submitted env =>
      exact (ih ((List.append_nil _).symm.trans hloops) hworked).post hworks
    | flightloop now xp =>
      cases n with
      | zero => exact absurd hloops (List.append_ne_nil_of_right_ne_nil _ (List.cons_ne_nil _ _))
      | succ n =>
        rw [List.range_succ, List.map_append] at hloops
        obtain ⟨hfront, hlast⟩ := List.append_inj' hloops rfl
        obtain ⟨rfl, rfl⟩ := Prod.mk.inj (List.cons.inj hlast).1
        exact (ih hfront hworked).flightloop hc ht hworks

theorem performed_targets
    (hc : (findDatarefs (xps 0) c.datarefs).1.map target = c.datarefs.map target) (n : ℕ) :
    (performed c time floats xps (findDatarefs (xps 0) c.datarefs).1 n).1.map target =
      c.datarefs.map target := by
  induction n with
  | zero => exact hc
  | succ n ih =>
    rw [performed]
    cases plan c time n with
    | none => exact ih
    | some frame => exact (updateDatarefs_targets frame _).trans ih

/-- **DRMU writes what is planned.**  Whenever its task runs in flight loops whose clock does not go
back, and in post-processing: as long as a command has not failed, everything it wrote was written
in the flight loops that belong to its plan.  In each of them every dataref was written once, in
order, and with the target values when the duration of the cycle was reached; nothing is written in
the rest of that cycle.  The command is done exactly if it is not repeated and its only cycle was
completed. -/
theorem drmu_follows_plan (hc : Fresh c) (ht : Forward c time) (hcommand : s.command = c)
    (hscheduled : t ∈ s.port.queues s.command.phase) (hwritten : s.written = [])
    (events : List Event)
    (hloops : flightloops events = (List.range n).map fun i => (time i, xps i))
    (hworks : (run floats t s events).command.failed = false) :
    (run floats t s events).written = (List.range n).flatMap (writes c time floats xps) ∧
      (∀ i < n, Active c time i →
        List.Forall₂ (fun planned w =>
            { w with values := planned.values } = planned ∧ (Reaches c time i → w = planned))
          (c.datarefs.map target) (writes c time floats xps i)) ∧
      (∀ i < n, ¬ Active c time i → writes c time floats xps i = []) ∧
      ((run floats t s events).command.done = true ↔ c.interval = 0 ∧ ∃ i < n,
        Reaches c time i) := by
  have h := run_performs hc ht hcommand hscheduled hwritten events hloops hworks
  refine ⟨h.written.trans (performed_written n), fun i hi hactive => ?_, fun i hi hrest => ?_, ?_⟩
  · have hplan : plan c time i = some ⟨c.method, c.monitorMode,
        c.hasFetchBasedDatarefs && decide (Opens c time i),
        if c.method = .immediate then 1 else elapsed c time i / (c.duration : ℚ)⟩ := if_pos hactive
    have hall := updateDatarefs_written (h.successful i hi _ hplan)
    rw [writes, hplan, ← performed_targets (findDatarefs_targets (xps 0) c.datarefs) i,
      List.forall₂_map_left_iff]
    refine hall.imp ?_
    rintro d w ⟨values, rfl, hvalues⟩
    refine ⟨rfl, fun hreaches => ?_⟩
    rw [hvalues ((completes_iff hc).2 hreaches)]
    rfl
  · rw [writes, plan_eq_none hrest]
  · rw [h.follows.done, Bool.and_eq_true_iff, decide_eq_true_eq, h.follows.complete, and_comm]
    refine and_congr_right fun hzero => exists_congr fun j => and_congr_right fun _ => ?_
    have hsame : cycle c time j = cycle c time (n - 1) := by
      rw [cycle, cycle, if_pos hzero, if_pos hzero]
    exact ⟨fun hreaches => hreaches.2, fun hreaches => ⟨hsame, hreaches⟩⟩

/-- A command that takes a value from 10 to 20 in two frames, every second -/
theorem drmu_follows_plan_linear :
    let port : Port := ⟨⟨false, fun _ => none⟩, fun _ => [7], []⟩
    let item : ℤ → DrmuValues := fun n => .array ⟨4, [BitVec.ofInt 32 n]⟩
    let c : CommandDrmu :=
      { channelId := 5, task := some 7, phase := .beforeFlightModel
        method := .linear, monitorMode := .set
        baseTimeMillis := 40, interval := 1000
        intervalRemainingFrames := 0, isIntervalFrames := false
        duration := 2, durationFrames := 0, isDurationFrames := true
        initialized := false, failed := false
        updateBaseValues := false, cycleComplete := false, done := false
        datarefs :=
          [⟨⟨xplmTypeInt, -1, bytes "d", item 20, item 0, some (item 10), false⟩, none, none⟩]
        hasProxiedDatarefs := false, hasFetchBasedDatarefs := false, timestamp := 0 }
    let floats : DrmuFloats :=
      { linear := fun _ progress base target =>
          some (BitVec.ofInt 32 (base.toInt + progress * (target.toInt - base.toInt)).floor)
        linearDouble := fun _ _ target => some target }
    let xp : DrmuXp :=
      { find := fun _ => some 1, types := fun _ => xplmTypeInt, get := fun _ _ => item 0
        getArray := fun _ _ _ _ => none, lockRegistry := .none
        proxySimpleGet := fun _ _ => .error .unspecific
        proxyArrayGet := fun _ _ _ _ => .error .unspecific
        proxySimpleSet := fun _ _ _ => .unspecific, proxyArrayUpdate := fun _ _ _ _ => .unspecific }
    let env : EncodeEnv DrmuValues :=
      ⟨true, fun _ => true, fun _ => true, fun _ _ => some [], fun _ => true, true⟩
    let events : List Event :=
      [.flightloop 100 xp, .post .none .none env, .flightloop 200 xp, .post .none .none env,
        .flightloop 300 xp, .post .none .none env]
    (run floats 7 ⟨c, port, []⟩ events).written.map DrmuWrite.values = [item 15, item 20] ∧
      (run floats 7 ⟨c, port, []⟩ events).written =
        (List.range 3).flatMap (writes c (fun i => 100 + 100 * (i : ℤ)) floats fun _ => xp) := by
  refine ⟨by decide +kernel,
    (drmu_follows_plan ⟨by decide, by decide, rfl, rfl, rfl, rfl, rfl, rfl, rfl, ?_⟩
    ⟨fun i j hij => ?_, by decide⟩ rfl (by decide) rfl _ rfl (by decide +kernel)).1⟩
  · exact List.cons_ne_nil _ _
  · omega

end

end DrmuCycle

end XprcServer
