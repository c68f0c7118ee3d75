import XprcServer.Channels.Lookup
import XprcServer.Commands.Config
import XprcServer.Lib.Locks
import XprcServer.Lib.Logged

/-!
# The world of a session

What a thread sees while it works on one session: the state it shares with other threads (the
channels of the session, the connection, the memory of the commands), how often it holds each of
the locks, and an `Environment` that decides everything the plugin does not: whether a lock can be
taken, what the clock says, whether an allocation or a transmission succeeds, and from when on
another thread has flagged an object for destruction.

Time is the number of such decisions taken so far (`tick`).  A destruction flag that another
thread sets at any moment is thus one that is seen set from some tick on, and never cleared.

`lock_session`, `lock_schedule` and `lock_xpcommand_registry` are the same code on three objects
(`lockFlagged`): the flag is checked, the mutex is locked, and the flag is checked again.

* `lockFlagged_granted`, `lockFlagged_refused` : what the lock functions do, by the predicate
  `World.refuses` on the state before the call;
* `locked_granted`, `locked_refused` : the same for code that runs while it holds a lock.
-/

namespace XprcServer

open Lib

/-- The locks taken for a request: of the task schedule, of the session, and of the registry of
X-Plane commands.  All three are recursive mutexes. -/
inductive Lock where
  | schedule
  | session
  | registry
  deriving DecidableEq, Repr

/-- `struct timespec` -/
structure Timespec where
  sec : ℤ
  nsec : ℤ
  deriving DecidableEq, Repr

/-- `millis_of_timespec` -/
def millisOfTimespec (ts : Timespec) : ℤ :=
  if ts.sec < 0 then -1 else ts.sec * 1000 + ts.nsec.tdiv 1000000

/-- What the plugin finds outside of itself; the argument is the tick of the question. -/
structure Environment where
  /-- The tick from which on `destruction_pending` is set for the owner of a lock. -/
  pendingFrom : Lock → Option ℕ
  /-- Whether `mtx_lock` succeeds on a mutex the thread does not hold yet. -/
  mtxLock : ℕ → Bool
  /-- `timespec_get` -/
  clock : ℕ → Option Timespec
  /-- Whether an allocation succeeds. -/
  alloc : ℕ → Bool
  /-- The result of `send_to_network`. -/
  send : ℕ → ErrorCode

/-- Nothing fails, and nothing is destroyed. -/
def Environment.calm : Environment where
  pendingFrom _ := none
  mtxLock _ := true
  clock _ := some ⟨0, 0⟩
  alloc _ := true
  send _ := .none

/-- `destruction_pending` of the owner of the lock, as seen at a tick. -/
def Environment.pendingAt (env : Environment) (l : Lock) (tick : ℕ) : Bool :=
  match env.pendingFrom l with
  | none => false
  | some start => start ≤ tick

/-- A flag that was seen set stays set. -/
theorem Environment.pendingAt_mono {env : Environment} {l : Lock} {n n' : ℕ} (hn : n ≤ n')
    (h : env.pendingAt l n = true) : env.pendingAt l n' = true := by
  unfold pendingAt at h ⊢
  cases hp : env.pendingFrom l with
  | none => rw [hp] at h; cases h
  | some start =>
    simp only [hp, decide_eq_true_eq] at h ⊢
    omega

/-- The state a thread works on; `μ` is the memory of the commands. -/
structure World (μ : Type) where
  env : Environment
  tick : ℕ
  /-- How often the thread holds each lock. -/
  depth : Lock → ℕ
  /-- `session->channels` -/
  channels : ChannelsTable
  /-- `session->reference_millis` -/
  referenceMillis : ℤ
  /-- `session->command_configs` -/
  configs : Command → Option CommandConfig
  /-- `connection->closing` -/
  closing : Bool
  /-- What `send_to_network` accepted on this connection. -/
  wire : List (List UInt8)
  memory : μ

/-- A new session of a build that has DRLS `unspecific`, in an environment where nothing fails. -/
def World.idle {μ : Type} (memory : μ) : World μ where
  env := .calm
  tick := 0
  depth _ := 0
  channels := .empty
  referenceMillis := 0
  configs command := some (defaultConfig true command)
  closing := false
  wire := []
  memory := memory

/-- Code of the plugin: it works on the world and logs its operations on the locks. -/
abbrev M (μ : Type) := Logged (World μ) (LockOp Lock)

namespace World

variable {μ : Type}

/-- The same state at another tick. -/
def atTick (w : World μ) (tick : ℕ) : World μ := { w with tick := tick }

/-- The state after an operation on a lock. -/
def apply (w : World μ) (o : LockOp Lock) : World μ := { w with depth := o.apply w.depth }

/-- An attempt to take the lock fails: its owner is flagged for destruction when the flag is
checked first or when it is checked again, or the mutex is not held yet and cannot be locked. -/
def refuses (w : World μ) (l : Lock) : Prop :=
  w.env.pendingAt l w.tick = true ∨
    (w.depth l = 0 ∧ w.env.mtxLock (w.tick + 1) = false) ∨
    w.env.pendingAt l (w.tick + 2) = true

instance (w : World μ) (l : Lock) : Decidable (w.refuses l) :=
  inferInstanceAs (Decidable (_ ∨ _ ∨ _))

section

variable (w : World μ) (n n' : ℕ) (o : LockOp Lock)

@[simp] theorem atTick_env : (w.atTick n).env = w.env := rfl

@[simp] theorem atTick_tick : (w.atTick n).tick = n := rfl

@[simp] theorem atTick_depth : (w.atTick n).depth = w.depth := rfl

@[simp] theorem atTick_channels : (w.atTick n).channels = w.channels := rfl

@[simp] theorem atTick_memory : (w.atTick n).memory = w.memory := rfl

@[simp] theorem atTick_atTick : (w.atTick n).atTick n' = w.atTick n' := rfl

@[simp] theorem apply_env : (w.apply o).env = w.env := rfl

@[simp] theorem apply_tick : (w.apply o).tick = w.tick := rfl

@[simp] theorem apply_depth : (w.apply o).depth = o.apply w.depth := rfl

@[simp] theorem apply_channels : (w.apply o).channels = w.channels := rfl

@[simp] theorem apply_memory : (w.apply o).memory = w.memory := rfl

@[simp] theorem apply_atTick : (w.apply o).atTick n = (w.atTick n).apply o := rfl

@[simp] theorem apply_unlock_apply_lock (l : Lock) :
    (w.apply (.lock l)).apply (.unlock l) = w := by
  simp [apply, LockOp.apply]

end

end World

section

variable {μ α : Type}

/-- Ask the environment. -/
def ask (f : Environment → ℕ → α) : M μ α :=
  fun w => ⟨f w.env w.tick, w.atTick (w.tick + 1), []⟩

@[simp] theorem run_ask (f : Environment → ℕ → α) (w : World μ) :
    (ask f).run w = ⟨f w.env w.tick, w.atTick (w.tick + 1), []⟩ := rfl

/-! ### Locks -/

/-- `destruction_pending` -/
def destructionPending (l : Lock) : M μ Bool := ask fun env tick => env.pendingAt l tick

/-- `mtx_lock`; a recursive mutex that the thread holds already is always locked once more. -/
def mtxLock (l : Lock) : M μ Bool := do
  let held ← Logged.read fun w => decide (0 < w.depth l)
  let success ← ask fun env tick => env.mtxLock tick
  if held || success then do
    Logged.update fun w => w.apply (.lock l)
    Logged.emit (.lock l)
    pure true
  else pure false

/-- `mtx_unlock` -/
def mtxUnlock (l : Lock) : M μ Unit := do
  Logged.update fun w => w.apply (.unlock l)
  Logged.emit (.unlock l)

/-- The common code of the lock functions. -/
def lockFlagged (l : Lock) : M μ ErrorCode := do
  if ← destructionPending l then pure .destructionPending
  else if ← mtxLock l then
    if ← destructionPending l then do
      mtxUnlock l
      pure .destructionPending
    else pure .none
  else pure .mutexFailed

/-- Code that runs while it holds the lock; `refused` is what it returns if it does not get it. -/
def locked {α : Type} (l : Lock) (refused : ErrorCode → α) (body : M μ α) : M μ α := do
  let err ← lockFlagged l
  if err = .none then do
    let result ← body
    mtxUnlock l
    pure result
  else pure (refused err)

/-- `lock_schedule` -/
def lockSchedule : M μ ErrorCode := lockFlagged .schedule

/-- `unlock_schedule` -/
def unlockSchedule : M μ Unit := mtxUnlock .schedule

/-- `lock_session` -/
def lockSession : M μ Bool := do
  let err ← lockFlagged .session
  pure (err = .none)

/-- `unlock_session` -/
def unlockSession : M μ Unit := mtxUnlock .session

@[simp] theorem run_mtxUnlock (l : Lock) (w : World μ) :
    (mtxUnlock l).run w = ⟨(), w.apply (.unlock l), [.unlock l]⟩ := rfl

variable {w : World μ} {l : Lock}

theorem run_mtxLock (l : Lock) (w : World μ) :
    (mtxLock l).run w =
      if 0 < w.depth l ∨ w.env.mtxLock w.tick = true then
        ⟨true, (w.atTick (w.tick + 1)).apply (.lock l), [.lock l]⟩
      else ⟨false, w.atTick (w.tick + 1), []⟩ := by
  by_cases h : 0 < w.depth l ∨ w.env.mtxLock w.tick = true
  · simp [mtxLock, h]
  · simp [mtxLock, h]

theorem lockFlagged_granted (h : ¬ w.refuses l) :
    (lockFlagged l).run w = ⟨.none, (w.atTick (w.tick + 3)).apply (.lock l), [.lock l]⟩ := by
  simp only [World.refuses, not_or, not_and, Bool.not_eq_true, Bool.not_eq_false] at h
  obtain ⟨hfirst, hmtx, hagain⟩ := h
  have hlock : 0 < w.depth l ∨ w.env.mtxLock (w.tick + 1) = true := by
    by_cases hd : w.depth l = 0
    · exact .inr (hmtx hd)
    · exact .inl (Nat.pos_of_ne_zero hd)
  simp [lockFlagged, destructionPending, run_mtxLock, hfirst, hagain, hlock]

/-- A refused attempt takes and releases the lock at most, and leaves the state as it was.  If the
thread holds the lock already, the attempt is refused for a destruction flag. -/
theorem lockFlagged_refused (h : w.refuses l) :
    ∃ n, w.tick ≤ n ∧ ((lockFlagged l).run w).val ≠ .none ∧
      ((lockFlagged l).run w).state = w.atTick n ∧
      (((lockFlagged l).run w).ops = [] ∨ ((lockFlagged l).run w).ops = [.lock l, .unlock l]) ∧
      (0 < w.depth l → w.env.pendingAt l n = true) := by
  by_cases hfirst : w.env.pendingAt l w.tick = true
  · refine ⟨w.tick + 1, by omega, ?_⟩
    simp [lockFlagged, destructionPending, hfirst,
      Environment.pendingAt_mono (Nat.le_succ _) hfirst]
  · by_cases hlock : 0 < w.depth l ∨ w.env.mtxLock (w.tick + 1) = true
    · have hagain : w.env.pendingAt l (w.tick + 2) = true := by
        rcases h with h | ⟨hd, hm⟩ | h
        · exact absurd h hfirst
        · rcases hlock with hpos | hm'
          · omega
          · rw [hm] at hm'; cases hm'
        · exact h
      refine ⟨w.tick + 3, by omega, ?_⟩
      simp [lockFlagged, destructionPending, run_mtxLock, hfirst, hagain, hlock,
        Environment.pendingAt_mono (Nat.le_succ _) hagain]
    · refine ⟨w.tick + 2, by omega, ?_⟩
      have hd : ¬ 0 < w.depth l := fun hd => hlock (.inl hd)
      have hrun : (lockFlagged l).run w = ⟨.mutexFailed, w.atTick (w.tick + 2), []⟩ := by
        simp [lockFlagged, destructionPending, run_mtxLock, hfirst, hlock]
      rw [hrun]
      exact ⟨by simp, rfl, .inl rfl, fun hpos => absurd hpos hd⟩

section

variable {α : Type} {refused : ErrorCode → α} {body : M μ α}

/-- The state in which code that got the lock `l` runs. -/
def World.holding (w : World μ) (l : Lock) : World μ := (w.atTick (w.tick + 3)).apply (.lock l)

@[simp] theorem World.holding_channels (w : World μ) (l : Lock) :
    (w.holding l).channels = w.channels := rfl

@[simp] theorem World.holding_depth (w : World μ) (l : Lock) :
    (w.holding l).depth = (LockOp.lock l).apply w.depth := rfl

theorem locked_granted (h : ¬ w.refuses l) :
    (locked l refused body).run w =
      ⟨(body.run (w.holding l)).val, (body.run (w.holding l)).state.apply (.unlock l),
        .lock l :: ((body.run (w.holding l)).ops ++ [.unlock l])⟩ := by
  simp [locked, lockFlagged_granted h, World.holding]

theorem locked_refused (refused : ErrorCode → α) (body : M μ α) (h : w.refuses l) :
    ∃ n, w.tick ≤ n ∧ ((locked l refused body).run w).state = w.atTick n ∧
      (((locked l refused body).run w).ops = [] ∨
        ((locked l refused body).run w).ops = [.lock l, .unlock l]) := by
  obtain ⟨n, hn, hval, hstate, hops, -⟩ := lockFlagged_refused h
  refine ⟨n, hn, ?_⟩
  simpa [locked, hval, hstate] using hops

end

end

end XprcServer
