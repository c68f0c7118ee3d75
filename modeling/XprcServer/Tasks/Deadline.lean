import XprcServer.Session.World

/-!
# Waiting for the schedule

`lock_schedule_timeout` waits for the mutex of the task schedule until a deadline, which
`timespec_now_plus_millis` is to compute from the current time.  The offset is multiplied by 1000
there, as if the fraction of a second was counted in microseconds; it is counted in nanoseconds, so
that the deadline lies only a thousandth of the offset ahead.

* `timespecNowPlusMillis_spec` : the deadline is always normalised and no computation overflows, but
  it is that many microseconds ahead;
* `lockScheduleTimeout_deadline` : the mutex is waited for until that deadline;
* `meetsDeadline_iff` : this is the right one only without an offset.

The schedule is not NULL.
-/

namespace XprcServer

/-- A current time as `timespec_get` returns it -/
structure CurrentTime extends Timespec where
  nsec_nonneg : 0 ≤ nsec
  nsec_lt : nsec < 10 ^ 9

/-- The time in nanoseconds -/
def Timespec.nanoseconds (t : Timespec) : ℤ := t.sec * 10 ^ 9 + t.nsec

/-- The result of a computation in an `int`; nothing on an overflow -/
def asInt (value : ℤ) : Option ℤ := if -2 ^ 31 ≤ value ∧ value < 2 ^ 31 then some value else none

/-- The result of a computation in a `long` of 64 bits; nothing on an overflow -/
def asLong (value : ℤ) : Option ℤ := if -2 ^ 63 ≤ value ∧ value < 2 ^ 63 then some value else none

/-- `timespec_now_plus_millis`: the deadline, unless `timespec_get` failed.  There is no result on
an overflow. -/
def timespecNowPlusMillis (now : Option CurrentTime) (millis : UInt16) : Option (Option Timespec) :=
  match now with
  | none => some none
  | some now =>
    if millis ≠ 0 then do
      let offset ← asInt (millis.toNat * 1000)
      let nsec ← asLong (now.nsec + offset)
      return some ⟨now.sec + nsec.tdiv 1000000000, nsec.tmod 1000000000⟩
    else some (some now.toTimespec)

/-- The results of `mtx_timedlock` -/
inductive TimedLock where
  | success
  | timedOut
  | error
  deriving DecidableEq

/-- `lock_schedule_timeout`: the error code, and the deadline that `mtx_timedlock` was called with.
`pending` is the flag of a destruction before and after the call. -/
def lockScheduleTimeout (now : Option CurrentTime) (pending : Bool × Bool)
    (mtxTimedlock : Timespec → TimedLock) (timeoutMillis : UInt16) :
    Option (ErrorCode × Option Timespec) := do
  match ← timespecNowPlusMillis now timeoutMillis with
  | none => return (.unspecific, none)
  | some maxWait =>
    if pending.1 then return (.destructionPending, none)
    match mtxTimedlock maxWait with
    | .timedOut => return (.mutexTimeout, some maxWait)
    | .error => return (.mutexFailed, some maxWait)
    | .success => return (if pending.2 then .destructionPending else .none, some maxWait)

/-- The deadline for a current time and an offset: it was computed without an overflow, is
normalised and lies that many milliseconds ahead, and the mutex is waited for until then. -/
structure MeetsDeadline (now : CurrentTime) (millis : UInt16) : Prop where
  deadline : ∃ deadline, timespecNowPlusMillis (some now) millis = some (some deadline) ∧
    (0 ≤ deadline.nsec ∧ deadline.nsec < 10 ^ 9) ∧
    deadline.nanoseconds = now.nanoseconds + millis.toNat * 10 ^ 6
  waits : ∀ pending mtxTimedlock, pending.1 = false →
    ∃ error deadline, lockScheduleTimeout (some now) pending mtxTimedlock millis =
        some (error, some deadline) ∧
      deadline.nanoseconds = now.nanoseconds + millis.toNat * 10 ^ 6

/-- **The deadline is normalised and no computation overflows**, but it is only that many
microseconds ahead. -/
theorem timespecNowPlusMillis_spec (now : CurrentTime) (millis : UInt16) :
    ∃ deadline, timespecNowPlusMillis (some now) millis = some (some deadline) ∧
      (0 ≤ deadline.nsec ∧ deadline.nsec < 10 ^ 9) ∧
      deadline.nanoseconds = now.nanoseconds + millis.toNat * 1000 := by
  have hnonneg := now.nsec_nonneg
  have hlt := now.nsec_lt
  have hmillis : millis.toNat < 65536 := millis.toNat_lt
  by_cases h : millis = 0
  · subst h
    exact ⟨now.toTimespec, rfl, ⟨hnonneg, hlt⟩, by simp⟩
  · have hint : asInt (millis.toNat * 1000) = some (millis.toNat * 1000 : ℤ) :=
      if_pos (by omega)
    have hlong : asLong (now.nsec + millis.toNat * 1000) =
        some (now.nsec + millis.toNat * 1000) := if_pos (by omega)
    refine ⟨⟨now.sec + (now.nsec + millis.toNat * 1000).tdiv 1000000000,
      (now.nsec + millis.toNat * 1000).tmod 1000000000⟩, ?_, ?_, ?_⟩
    · simp only [timespecNowPlusMillis, ne_eq, h, not_false_eq_true, if_true, hint, hlong,
        Option.bind_eq_bind, Option.bind_some]
      rfl
    · simp only [Int.tmod_eq_emod_of_nonneg (show 0 ≤ now.nsec + millis.toNat * 1000 by omega)]
      omega
    · simp only [Timespec.nanoseconds,
        Int.tmod_eq_emod_of_nonneg (show 0 ≤ now.nsec + millis.toNat * 1000 by omega),
        Int.tdiv_eq_ediv_of_nonneg (show 0 ≤ now.nsec + millis.toNat * 1000 by omega)]
      omega

/-- **The mutex is waited for until the deadline.** -/
theorem lockScheduleTimeout_deadline {now : CurrentTime} {millis : UInt16} {deadline : Timespec}
    (h : timespecNowPlusMillis (some now) millis = some (some deadline)) {pending : Bool × Bool}
    (hpending : pending.1 = false) (mtxTimedlock : Timespec → TimedLock) :
    ∃ error, lockScheduleTimeout (some now) pending mtxTimedlock millis =
      some (error, some deadline) := by
  simp only [lockScheduleTimeout, h, hpending, Option.bind_eq_bind, Option.bind_some,
    Bool.false_eq_true, if_false]
  cases mtxTimedlock deadline <;> exact ⟨_, rfl⟩

/-- **The deadline is the right one only without an offset.** -/
theorem meetsDeadline_iff (now : CurrentTime) (millis : UInt16) :
    MeetsDeadline now millis ↔ millis = 0 := by
  obtain ⟨deadline, hdeadline, hnormalised, htime⟩ := timespecNowPlusMillis_spec now millis
  constructor
  · intro h
    obtain ⟨deadline', hdeadline', -, htime'⟩ := h.deadline
    rw [hdeadline] at hdeadline'
    obtain rfl := Option.some.inj (Option.some.inj hdeadline')
    rw [← UInt16.toNat_inj]
    simp only [UInt16.toNat_zero]
    omega
  · rintro rfl
    refine ⟨⟨deadline, hdeadline, hnormalised, htime⟩, fun pending mtxTimedlock hpending => ?_⟩
    obtain ⟨error, hlock⟩ := lockScheduleTimeout_deadline hdeadline hpending mtxTimedlock
    exact ⟨error, deadline, hlock, htime⟩

/-- A millisecond ahead is only a microsecond ahead. -/
theorem not_meetsDeadline_one : ¬ MeetsDeadline ⟨⟨0, 0⟩, by decide, by decide⟩ 1 := by
  rintro ⟨⟨deadline, hdeadline, -, htime⟩, -⟩
  obtain ⟨deadline', hdeadline', -, htime'⟩ :=
    timespecNowPlusMillis_spec ⟨⟨0, 0⟩, by decide, by decide⟩ 1
  rw [hdeadline] at hdeadline'
  obtain rfl := Option.some.inj (Option.some.inj hdeadline')
  rw [htime] at htime'
  exact absurd htime' (by decide)

end XprcServer
