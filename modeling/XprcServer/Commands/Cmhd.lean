import XprcServer.Commands.Holding
import XprcServer.Commands.Port

/-!
# The command CMHD

`command_cmhd.c`: CMHD holds X-Plane commands until it is terminated.  Its task looks them up in the
first flight loop and starts to hold them; post-processing removes the task again.  Termination
queues the release of the entries that are held and removes these from the list; it succeeds if the
list is empty then.

Entries that were never held stay in the list, so that a command that is terminated before it holds
its entries does not end (`terminate_ok`).
-/

namespace XprcServer

open Lib

/-- `command_cmhd_t`; the session is the one of the port the command works on. -/
structure CommandCmhd where
  channelId : ChannelId
  task : Option ℕ
  initialized : Bool
  failed : Bool
  entries : List HoldEntry
  deriving DecidableEq, Repr

namespace Cmhd

/-- `CMHD_TASK_PHASE` -/
def taskPhase : TaskSchedulePhase := .beforeFlightModel

/-- The command and what it works on. -/
structure State where
  command : CommandCmhd
  port : Port
  xp : XpSide

namespace State

/-- A message on the channel of the command. -/
def send (s : State) (call : ChannelCall) (text : Option String) : State :=
  { s with
    port := s.port.send call s.command.channelId currentTimeReference (text.map bytes) }

/-- `command->failed = true` -/
def markFailed (s : State) : State := { s with command := { s.command with failed := true } }

end State

/-- `cmhd_unschedule` -/
def unschedule (lock : ErrorCode) (s : State) : ErrorCode × State :=
  let r := s.port.unschedule lock s.command.task taskPhase
  (r.1, { s with port := r.2.2, command := { s.command with task := r.2.1 } })

/-- `cmhd_terminate`; `lock` is the result of `lock_schedule`. -/
def terminate (lock : ErrorCode) (env : HoldEntry.ReleaseEnv) (s : State) : ErrorCode × State :=
  -- the channel may have been closed before; the result is ignored
  let r := unschedule lock (s.send .finish none)
  let s := r.2
  if r.1 ≠ .none then (r.1, s)
  else
    let r := HoldEntry.releaseAll env (fun _ => none) s.command.entries s.xp
    let s := { s with xp := r.2.2, command := { s.command with entries := r.1 } }
    if 0 < s.command.entries.length then (.unspecific, s)
    else
      (.none, { s with
        command := { s.command with channelId := badChannelId }
        port := s.port.requestChannelDestruction s.command.channelId })

/-- The end of `cmhd_process_flightloop`: all entries are held. -/
def holdAll (s : State) : State :=
  let r := HoldEntry.forAllXprefs .commandBegin true false s.command.entries s.xp
  { s with xp := r.2, command := { s.command with entries := r.1, initialized := true } }

/-- `cmhd_process_flightloop`; `confirm` is the result of `confirm_channel`. -/
def processFlightloop (findCommand : List UInt8 → Option ℕ) (confirm : ErrorCode)
    (s : State) : State :=
  if s.command.failed || s.command.initialized then s
  else
    let r := HoldEntry.findAll findCommand s.command.entries
    let s := { s with command := { s.command with entries := r.1 } }
    if !r.2 then s.markFailed.send .error (some "XP command not found")
    else
      let s := s.send .confirm none
      if confirm ≠ .none then s.markFailed else holdAll s

/-- `cmhd_process_post`; the result is that of `cmhd_terminate`, if it is called. -/
def processPost (lock : ErrorCode) (env : HoldEntry.ReleaseEnv) (s : State) :
    Option ErrorCode × State :=
  if s.command.failed then
    let r := terminate lock env s
    (some r.1, r.2)
  else if !s.command.initialized then (none, s)
  else
    let r := unschedule lock s
    if r.1 ≠ .none then (none, r.2.markFailed) else (none, r.2)

/-! ### What is held -/

section

variable {s s' : State}

/-- The entries say what X-Plane holds: all of them from the initialization on, none before.  There
is at least one to initialize. -/
structure Sound (s : State) : Prop where
  tracks : HoldEntry.Tracks (s.command.task ≠ none) s.command.entries s.xp
  held : ∀ entry ∈ s.command.entries, entry.held = s.command.initialized
  nonempty : s.command.initialized = false → s.command.entries ≠ []

/-- A flight loop keeps the entries in step with X-Plane. -/
theorem processFlightloop_sound (h : Sound s) (htask : s.command.task ≠ none)
    (findCommand : List UInt8 → Option ℕ) (confirm : ErrorCode) :
    Sound (processFlightloop findCommand confirm s) := by
  unfold processFlightloop
  dsimp only
  split
  · exact h
  rename_i hready
  have hinit : s.command.initialized = false := by
    cases hinit : s.command.initialized with
    | false => rfl
    | true => exact absurd (by simp [hinit]) hready
  have hnone : ∀ entry ∈ s.command.entries, entry.held = false := by
    intro entry hentry
    rw [h.held entry hentry, hinit]
  obtain ⟨htracks, hfound⟩ := h.tracks.findAll hnone findCommand
  have hheld : ∀ entry ∈ (HoldEntry.findAll findCommand s.command.entries).1,
      entry.held = s.command.initialized := by
    intro entry hentry
    rw [hfound entry hentry, hinit]
  have hlength : (HoldEntry.findAll findCommand s.command.entries).1 ≠ [] := by
    intro hempty
    have haddress := (HoldEntry.findAll_map_address findCommand s.command.entries).1
    rw [hempty, List.map_nil] at haddress
    exact h.nonempty hinit (List.map_eq_nil_iff.1 haddress.symm)
  split
  · exact ⟨htracks, hheld, fun _ => hlength⟩
  rename_i hmissing
  split
  · exact ⟨htracks, hheld, fun _ => hlength⟩
  · refine ⟨htracks.forAllXprefs_begin htask hfound ?_, ?_, fun himpossible => nomatch himpossible⟩
    · exact HoldEntry.findAll_found (by simpa using hmissing)
    · intro entry hentry
      change entry ∈ (HoldEntry.forAllXprefs _ _ _ _ _).1 at hentry
      rw [HoldEntry.forAllXprefs_fst] at hentry
      obtain ⟨entry', -, rfl⟩ := List.mem_map.1 hentry
      rfl

theorem processFlightloop_quiet (findCommand : List UInt8 → Option ℕ) (confirm : ErrorCode)
    (s : State) :
    (processFlightloop findCommand confirm s).command.channelId = s.command.channelId ∧
      (processFlightloop findCommand confirm s).command.task = s.command.task ∧
      (processFlightloop findCommand confirm s).port.queues = s.port.queues ∧
      (processFlightloop findCommand confirm s).port.channels = s.port.channels := by
  unfold processFlightloop
  dsimp only
  split_ifs <;> exact ⟨rfl, rfl, rfl, rfl⟩

theorem keeps_none : HoldEntry.Keeps fun _ => none := by
  intro entry kept hkept
  cases hkept

/-- Removing entries whose release was queued, entries that are not held stay. -/
theorem releaseAll_held (env : HoldEntry.ReleaseEnv) (xp : XpSide) {entries : List HoldEntry}
    {initialized : Bool} (h : ∀ entry ∈ entries, entry.held = initialized) :
    (∀ entry ∈ (HoldEntry.releaseAll env (fun _ => none) entries xp).1, entry.held = initialized) ∧
      (initialized = false → (HoldEntry.releaseAll env (fun _ => none) entries xp).1 =
        entries) := by
  induction entries with
  | nil => exact ⟨fun _ hentry => (nomatch hentry), fun _ => rfl⟩
  | cons entry rest ih =>
    obtain ⟨hall, hkept⟩ := ih fun e he => h e (List.mem_cons_of_mem _ he)
    have hentry := h entry List.mem_cons_self
    have hcons : ∀ e ∈ entry :: (HoldEntry.releaseAll env (fun _ => none) rest xp).1,
        e.held = initialized := by
      intro e he
      rcases List.mem_cons.1 he with rfl | hrest
      · exact hentry
      · exact hall e hrest
    unfold HoldEntry.releaseAll
    dsimp only
    split_ifs with hheld
    · refine ⟨hall, fun hfalse => ?_⟩
      rw [hentry, hfalse] at hheld
      cases hheld
    · refine ⟨hcons, fun hfalse => ?_⟩
      rw [hentry, hfalse] at hheld
      cases hheld
    · exact ⟨hcons, fun hfalse => congrArg _ (hkept hfalse)⟩

/-- `cmhd_terminate` keeps the entries in step with X-Plane; if it succeeds, the task is gone and
nothing is held any more. -/
theorem terminate_sound {t : ℕ} (h : Sound s)
    (hschedules : s.port.Schedules t taskPhase s.command.task)
    (lock : ErrorCode) (env : HoldEntry.ReleaseEnv) :
    Sound (terminate lock env s).2 ∧
      (terminate lock env s).2.port.Schedules t taskPhase (terminate lock env s).2.command.task ∧
      ((terminate lock env s).1 = .none → (terminate lock env s).2.command.task = none ∧
        HoldEntry.heldAddresses (terminate lock env s).2.command.entries = []) := by
  have hsent : (s.send .finish none).port.Schedules t taskPhase s.command.task := hschedules
  obtain ⟨hport, hgone, hkept, -⟩ := hsent.unschedule lock
  set r := (s.send .finish none).port.unschedule lock s.command.task taskPhase with hr
  have hrun : unschedule lock (s.send .finish none) =
      (r.1, { s with port := r.2.2, command := { s.command with task := r.2.1 } }) := rfl
  unfold terminate
  dsimp only
  rw [hrun]
  by_cases hfailed : r.1 ≠ .none
  · -- the task could not be unscheduled: nothing has changed but the messages
    rw [if_pos hfailed]
    have hsame : r.2.1 = s.command.task := congrArg Prod.fst (hkept hfailed)
    refine ⟨⟨?_, h.held, h.nonempty⟩, hport, fun hnone => absurd hnone hfailed⟩
    change HoldEntry.Tracks (r.2.1 ≠ none) s.command.entries s.xp
    rw [hsame]
    exact h.tracks
  · rw [if_neg hfailed]
    have htask : r.2.1 = none := hgone (not_not.1 hfailed)
    have htracks : HoldEntry.Tracks (r.2.1 ≠ none) s.command.entries s.xp :=
      h.tracks.mono fun hsome => absurd htask hsome
    have hreleased := htracks.releaseAll keeps_none (not_not.2 htask) env
    obtain ⟨hheld, hnone⟩ := releaseAll_held env s.xp h.held
    have hnonempty : s.command.initialized = false →
        (HoldEntry.releaseAll env (fun _ => none) s.command.entries s.xp).1 ≠ [] := by
      intro hinit
      rw [hnone hinit]
      exact h.nonempty hinit
    split
    · exact ⟨⟨hreleased, hheld, hnonempty⟩, hport, fun himpossible => nomatch himpossible⟩
    · rename_i hempty
      refine ⟨⟨hreleased, hheld, hnonempty⟩, hport, fun _ => ⟨htask, ?_⟩⟩
      have hnil : (HoldEntry.releaseAll env (fun _ => none) s.command.entries s.xp).1 = [] :=
        List.length_eq_zero_iff.1 (Nat.eq_zero_of_not_pos hempty)
      change HoldEntry.heldAddresses
        (HoldEntry.releaseAll env (fun _ => none) s.command.entries s.xp).1 = []
      rw [hnil]
      rfl

theorem terminate_idle (lock : ErrorCode) (env : HoldEntry.ReleaseEnv)
    (h : s.command.task = none ∧ HoldEntry.heldAddresses s.command.entries = []) :
    (terminate lock env s).2.command.task = none ∧
      HoldEntry.heldAddresses (terminate lock env s).2.command.entries = [] := by
  have hidle := HoldEntry.releaseAll_idle env keeps_none s.xp h.2
  have hrun : unschedule lock (s.send .finish none) = (.none, s.send .finish none) := by
    have hnone : (s.send .finish none).command.task = none := h.1
    unfold unschedule Port.unschedule
    rw [hnone]
    simp [← hnone]
  unfold terminate
  dsimp only
  rw [hrun, if_neg (not_not.2 rfl)]
  split
  · exact ⟨h.1, hidle⟩
  · exact ⟨h.1, hidle⟩

/-- If the schedule can be locked and the releases can be queued, `cmhd_terminate` succeeds exactly
if the command was initialized, and then it requests that the channel be destroyed. -/
theorem terminate_ok {t : ℕ} {lock : ErrorCode} {env : HoldEntry.ReleaseEnv} (h : Sound s)
    (hschedules : s.port.Schedules t taskPhase s.command.task) (hlock : lock = .none)
    (hresults : ∀ a, env.results a = .ok) (hpending : s.xp.queue.destructionPending = false) :
    ((terminate lock env s).1 = .none ↔ s.command.initialized = true) ∧
      (s.command.initialized = true → (terminate lock env s).2.port.channels =
        (s.port.requestChannelDestruction s.command.channelId).channels) := by
  have hsent : (s.send .finish none).port.Schedules t taskPhase s.command.task := hschedules
  obtain ⟨-, -, -, hchannels, hok⟩ := hsent.unschedule lock
  set r := (s.send .finish none).port.unschedule lock s.command.task taskPhase with hr
  have hrun : unschedule lock (s.send .finish none) =
      (r.1, { s with port := r.2.2, command := { s.command with task := r.2.1 } }) := rfl
  have hreleased : (HoldEntry.releaseAll env (fun _ => none) s.command.entries s.xp).1 =
      s.command.entries.flatMap fun entry => if entry.held then [] else [entry] :=
    (HoldEntry.releaseAll_ok hresults hpending h.tracks.refs).1
  unfold terminate
  dsimp only
  rw [hrun, if_neg (not_not.2 (hok hlock)), hreleased]
  cases hinit : s.command.initialized with
  | true =>
    have hempty : (s.command.entries.flatMap fun entry => if entry.held then [] else [entry]) =
        [] := by
      refine List.flatMap_eq_nil_iff.2 fun entry hentry => ?_
      rw [h.held entry hentry, hinit]
      rfl
    rw [hempty, List.length_nil, if_neg (Nat.lt_irrefl 0)]
    refine ⟨iff_of_true rfl rfl, fun _ => ?_⟩
    change (r.2.2.requestChannelDestruction s.command.channelId).channels = _
    unfold Port.requestChannelDestruction
    rw [hchannels]
    rfl
  | false =>
    have hall : (s.command.entries.flatMap fun entry => if entry.held then [] else [entry]) ≠
        [] := by
      intro hempty
      obtain ⟨entry, hentry⟩ := List.exists_mem_of_ne_nil _ (h.nonempty hinit)
      have hthis := List.flatMap_eq_nil_iff.1 hempty entry hentry
      rw [h.held entry hentry, hinit] at hthis
      cases hthis
    rw [if_pos (List.length_pos_iff.2 hall)]
    exact ⟨iff_of_false (by simp) (by simp), fun himpossible => nomatch himpossible⟩

theorem processPost_sound {t : ℕ} (h : Sound s)
    (hschedules : s.port.Schedules t taskPhase s.command.task) (lock : ErrorCode)
    (env : HoldEntry.ReleaseEnv) :
    Sound (processPost lock env s).2 ∧
      (processPost lock env s).2.port.Schedules t taskPhase
        (processPost lock env s).2.command.task ∧
      ((processPost lock env s).1 = some .none →
        (processPost lock env s).2.command.task = none ∧
          HoldEntry.heldAddresses (processPost lock env s).2.command.entries = []) := by
  obtain ⟨hsound, hport, hdone⟩ := terminate_sound h hschedules lock env
  unfold processPost
  split
  · exact ⟨hsound, hport, fun hnone => hdone (Option.some.inj hnone)⟩
  split
  · exact ⟨h, hschedules, fun himpossible => nomatch himpossible⟩
  -- a task that is given up was none that waits for a release
  obtain ⟨hport', hgone, hkept, -⟩ := hschedules.unschedule lock
  have htracks : HoldEntry.Tracks ((s.port.unschedule lock s.command.task taskPhase).2.1 ≠ none)
      s.command.entries s.xp := by
    by_cases hfailed : (s.port.unschedule lock s.command.task taskPhase).1 ≠ .none
    · rw [hkept hfailed]
      exact h.tracks
    · exact h.tracks.mono fun hsome => absurd (hgone (not_not.1 hfailed)) hsome
  dsimp only
  split
  · exact ⟨⟨htracks, h.held, h.nonempty⟩, hport', fun himpossible => nomatch himpossible⟩
  · exact ⟨⟨htracks, h.held, h.nonempty⟩, hport', fun himpossible => nomatch himpossible⟩

end

end Cmhd

end XprcServer
