import XprcServer.Basic
import XprcServer.Lib.Alternation

/-!
# The queue of X-Plane calls

`xpqueue.c`: a command that ends outside of a flight loop cannot release the X-Plane commands it
holds itself.  It queues a call of `XPLMCommandEnd`, and the flight loop flushes the queue.

An `XpSide` is what X-Plane sees of it: the calls it received so far, and the queue of those it is
going to receive.  Calls and queued tasks carry the entry of the command for which they were made;
the plugin does not need to know it, but this is how one speaks about the calls of one entry.

* `XpSide.queued_eq` : what was queued was delivered in this order, or waits in the queue in this
  order;
* `XpSide.At` : whether an entry is released, is held, or is going to be released by the queue, with
  one lemma for each operation.
-/

namespace XprcServer

open Lib

/-- `xpqueue_task_t`, and the entry for which the task was queued; no X-Plane command is
`NO_XP_COMMAND`. -/
structure XpqueueTask where
  xpRef : Option ℕ
  entry : Option ℕ
  deriving DecidableEq, Repr

/-- `xpqueue_t` -/
structure Xpqueue where
  destructionPending : Bool
  hasPendingTasks : Bool
  list : List XpqueueTask
  deriving DecidableEq, Repr

/-- The functions of X-Plane that hold, release and trigger an X-Plane command. -/
inductive XplmCommandFunction where
  | commandBegin
  | commandEnd
  | commandOnce
  deriving DecidableEq, Repr

/-- A call of such a function; `deferred` calls come from the queue. -/
structure XplmCommandCall where
  function : XplmCommandFunction
  xpRef : Option ℕ
  entry : Option ℕ
  deferred : Bool
  deriving DecidableEq, Repr

/-- The queue, the calls so far, and all tasks that were ever queued. -/
structure XpSide where
  queue : Xpqueue
  calls : List XplmCommandCall
  queued : List XpqueueTask
  deriving DecidableEq, Repr

/-- What `queue_XPLMCommandEnd` finds: whether the task can be allocated, the mutex locked, and the
list extended. -/
structure QueueResults where
  alloc : Bool
  mtxLock : Bool
  append : Bool
  deriving DecidableEq, Repr

/-- Nothing fails. -/
def QueueResults.ok : QueueResults := ⟨true, true, true⟩

namespace XpSide

/-- A call of X-Plane. -/
def call (s : XpSide) (call : XplmCommandCall) : XpSide := { s with calls := s.calls ++ [call] }

/-- `lock_xpqueue` -/
def lockXpqueue (mtxLock : Bool) (s : XpSide) : ErrorCode :=
  if s.queue.destructionPending then .destructionPending
  else if mtxLock then .none
  else .mutexFailed

/-- `queue_XPLMCommandEnd` -/
def queueCommandEnd (results : QueueResults) (xpRef entry : Option ℕ) (s : XpSide) :
    ErrorCode × XpSide :=
  if xpRef = none then (.unspecific, s)
  else if !results.alloc then (.memoryAllocation, s)
  else if s.lockXpqueue results.mtxLock ≠ .none then (s.lockXpqueue results.mtxLock, s)
  else if results.append then
    (.none,
      { s with
        queue := { s.queue with list := s.queue.list ++ [⟨xpRef, entry⟩], hasPendingTasks := true }
        queued := s.queued ++ [⟨xpRef, entry⟩] })
  else (.memoryAllocation, s)

/-- The loop of `flush_xpqueue`. -/
def flushLoop : List XpqueueTask → XpSide → XpSide
  | [], s => s
  | task :: rest, s =>
    let s := s.call ⟨.commandEnd, task.xpRef, task.entry, true⟩
    flushLoop rest { s with queue := { s.queue with list := s.queue.list.tail } }

/-- `flush_xpqueue` -/
def flushXpqueue (mtxLock : Bool) (s : XpSide) : ErrorCode × XpSide :=
  if !s.queue.hasPendingTasks then (.none, s)
  else if s.lockXpqueue mtxLock ≠ .none then (s.lockXpqueue mtxLock, s)
  else
    let s := flushLoop s.queue.list s
    if s.queue.list.length = 0 then
      (.none, { s with queue := { s.queue with hasPendingTasks := false } })
    else (.unspecific, s)

/-! ### What the operations do -/

variable {s : XpSide}

/-- Either the call is refused and nothing happens, or it is queued. -/
theorem queueCommandEnd_cases (results : QueueResults) (xpRef entry : Option ℕ) (s : XpSide) :
    ((s.queueCommandEnd results xpRef entry).1 ≠ .none ∧
      (s.queueCommandEnd results xpRef entry).2 = s) ∨
    s.queueCommandEnd results xpRef entry = (.none,
      { s with
        queue := { s.queue with list := s.queue.list ++ [⟨xpRef, entry⟩], hasPendingTasks := true }
        queued := s.queued ++ [⟨xpRef, entry⟩] }) := by
  unfold queueCommandEnd
  split_ifs with href halloc hlock happend
  · exact .inl ⟨by simp, rfl⟩
  · exact .inl ⟨by simp, rfl⟩
  · exact .inl ⟨hlock, rfl⟩
  · exact .inr rfl
  · exact .inl ⟨by simp, rfl⟩

theorem queueCommandEnd_ok {results : QueueResults} {xpRef entry : Option ℕ}
    (hresults : results = .ok) (hpending : s.queue.destructionPending = false)
    (href : xpRef ≠ none) :
    (s.queueCommandEnd results xpRef entry).1 = .none := by
  subst hresults
  simp [queueCommandEnd, href, lockXpqueue, hpending, QueueResults.ok]

theorem flushLoop_eq (tasks : List XpqueueTask) (s : XpSide) :
    flushLoop tasks s =
      { s with
        queue := { s.queue with list := s.queue.list.drop tasks.length }
        calls := s.calls ++ tasks.map fun task =>
          ⟨.commandEnd, task.xpRef, task.entry, true⟩ } := by
  induction tasks generalizing s with
  | nil => simp [flushLoop]
  | cons task rest ih =>
    rw [flushLoop, ih]
    simp [call, List.drop_tail]

/-- Either nothing happens, or the whole queue is delivered. -/
theorem flushXpqueue_cases (mtxLock : Bool) (s : XpSide) :
    ((s.flushXpqueue mtxLock).2 = s ∧
      ((s.flushXpqueue mtxLock).1 = .none → s.queue.hasPendingTasks = false)) ∨
    s.flushXpqueue mtxLock = (.none,
      { s with
        queue := { s.queue with list := [], hasPendingTasks := false }
        calls := s.calls ++
          s.queue.list.map fun task => ⟨.commandEnd, task.xpRef, task.entry, true⟩ }) := by
  unfold flushXpqueue
  split_ifs with hpending hlock
  · exact .inl ⟨rfl, fun _ => by simpa using hpending⟩
  · exact .inl ⟨rfl, fun h => absurd h hlock⟩
  · right
    simp [flushLoop_eq]

theorem flushXpqueue_queued (mtxLock : Bool) (s : XpSide) :
    (s.flushXpqueue mtxLock).2.queued = s.queued := by
  rcases flushXpqueue_cases mtxLock s with ⟨heq, -⟩ | heq
  · rw [heq]
  · rw [heq]

/-! ### Delivery -/

/-- The tasks that were delivered to X-Plane, in the order of the calls. -/
def delivered (s : XpSide) : List XpqueueTask :=
  s.calls.filterMap fun call => if call.deferred then some ⟨call.xpRef, call.entry⟩ else none

/-- What was queued has been delivered or waits in the queue, and nothing was delivered out of turn
or twice. -/
structure Delivers (s : XpSide) : Prop where
  queued_eq : s.queued = s.delivered ++ s.queue.list
  pending : s.queue.hasPendingTasks = false → s.queue.list = []

theorem Delivers.call {c : XplmCommandCall} (h : s.Delivers) (hc : c.deferred = false) :
    (s.call c).Delivers := by
  refine ⟨?_, h.pending⟩
  rw [show (s.call c).queued = s.queued from rfl, h.queued_eq]
  simp [delivered, XpSide.call, hc]

theorem Delivers.queueCommandEnd (h : s.Delivers) (results : QueueResults)
    (xpRef entry : Option ℕ) :
    (s.queueCommandEnd results xpRef entry).2.Delivers := by
  rcases queueCommandEnd_cases results xpRef entry s with ⟨-, heq⟩ | heq
  · rw [heq]
    exact h
  · rw [heq]
    refine ⟨?_, fun hpending => nomatch hpending⟩
    change s.queued ++ _ = s.delivered ++ (s.queue.list ++ _)
    rw [h.queued_eq, List.append_assoc]

theorem Delivers.flushXpqueue (h : s.Delivers) (mtxLock : Bool) :
    (s.flushXpqueue mtxLock).2.Delivers := by
  rcases flushXpqueue_cases mtxLock s with ⟨heq, -⟩ | heq
  · rw [heq]
    exact h
  · rw [heq]
    refine ⟨?_, fun _ => rfl⟩
    change s.queued = _
    rw [h.queued_eq]
    simp [delivered]

/-- A successful flush leaves an empty queue: everything that was queued is delivered. -/
theorem Delivers.flushed (h : s.Delivers) {mtxLock : Bool}
    (hflush : (s.flushXpqueue mtxLock).1 = .none) :
    (s.flushXpqueue mtxLock).2.queue.list = [] := by
  rcases flushXpqueue_cases mtxLock s with ⟨heq, hpending⟩ | heq
  · rw [heq]
    exact h.pending (hpending hflush)
  · rw [heq]

/-! ### The calls of one entry -/

/-- What a call does to an entry. -/
def bracketOf (a : ℕ) (call : XplmCommandCall) : Option Bracket :=
  if call.entry = some a then
    match call.function with
    | .commandBegin => some .opens
    | .commandEnd => some .closes
    | .commandOnce => none
  else none

/-- The calls of `XPLMCommandBegin` and `XPLMCommandEnd` for an entry. -/
def callsOf (a : ℕ) (s : XpSide) : List Bracket := s.calls.filterMap (bracketOf a)

/-- How many calls are queued for an entry. -/
def pendingOf (a : ℕ) (s : XpSide) : ℕ := s.queue.list.countP fun task => task.entry = some a

end XpSide

/-- What X-Plane knows about an entry: it is not held, it is held, or it is held and its release is
queued. -/
inductive EntryPhase where
  | released
  | held
  | releasing
  deriving DecidableEq, Repr

namespace XpSide

variable {s : XpSide} {a b : ℕ} {phase : EntryPhase}

/-- The entry at the address `a` is in the phase. -/
structure At (s : XpSide) (a : ℕ) (phase : EntryPhase) : Prop where
  alternating : Alternating (s.callsOf a)
  isOpen : IsOpen (s.callsOf a) ↔ phase ≠ .released
  pending : s.pendingOf a = if phase = .releasing then 1 else 0

/-- A call that is not about the entry. -/
theorem At.call_other {c : XplmCommandCall} (h : s.At a phase) (hc : bracketOf a c = none) :
    (s.call c).At a phase := by
  have hcalls : (s.call c).callsOf a = s.callsOf a := by simp [callsOf, call, hc]
  refine ⟨?_, ?_, h.pending⟩
  · rw [hcalls]
    exact h.alternating
  · rw [hcalls]
    exact h.isOpen

theorem At.commandBegin {xpRef : Option ℕ} (h : s.At a .released) :
    (s.call ⟨.commandBegin, xpRef, some a, false⟩).At a .held := by
  have hcalls : (s.call ⟨.commandBegin, xpRef, some a, false⟩).callsOf a = s.callsOf a ++
      [.opens] := by
    simp [callsOf, call, bracketOf]
  have hclosed : ¬ IsOpen (s.callsOf a) := fun hopen => h.isOpen.1 hopen rfl
  refine ⟨?_, ?_, h.pending⟩
  · rw [hcalls]
    exact h.alternating.opens hclosed
  · rw [hcalls]
    simp

theorem At.commandEnd {xpRef : Option ℕ} (h : s.At a .held) :
    (s.call ⟨.commandEnd, xpRef, some a, false⟩).At a .released := by
  have hcalls : (s.call ⟨.commandEnd, xpRef, some a, false⟩).callsOf a = s.callsOf a ++
      [.closes] := by
    simp [callsOf, call, bracketOf]
  refine ⟨?_, ?_, h.pending⟩
  · rw [hcalls]
    exact h.alternating.closes (h.isOpen.2 (by decide))
  · rw [hcalls]
    simp

theorem At.queue_other {results : QueueResults} {xpRef entry : Option ℕ} (h : s.At a phase)
    (hentry : entry ≠ some a) : (s.queueCommandEnd results xpRef entry).2.At a phase := by
  rcases queueCommandEnd_cases results xpRef entry s with ⟨-, heq⟩ | heq
  · rw [heq]
    exact h
  · rw [heq]
    refine ⟨h.alternating, h.isOpen, ?_⟩
    rw [← h.pending]
    simp [pendingOf, hentry]

/-- Queueing the release of an entry that is held. -/
theorem At.queue_self {results : QueueResults} {xpRef : Option ℕ} (h : s.At a .held)
    (hqueued : (s.queueCommandEnd results xpRef (some a)).1 = .none) :
    (s.queueCommandEnd results xpRef (some a)).2.At a .releasing := by
  rcases queueCommandEnd_cases results xpRef (some a) s with ⟨hne, -⟩ | heq
  · exact absurd hqueued hne
  · rw [heq]
    refine ⟨h.alternating, ?_, ?_⟩
    · exact h.isOpen.trans (by decide)
    · have hpending : s.pendingOf a = 0 := h.pending
      change (s.queue.list ++ [_]).countP _ = 1
      simpa [pendingOf] using hpending

/-- A flush releases the entries whose release is queued, each by one call. -/
theorem filterMap_bracketOf_flushed (a : ℕ) (tasks : List XpqueueTask) :
    (tasks.map fun task => (⟨.commandEnd, task.xpRef, task.entry, true⟩ :
      XplmCommandCall)).filterMap
      (bracketOf a) = List.replicate (tasks.countP fun task => task.entry = some a) .closes := by
  induction tasks with
  | nil => rfl
  | cons task rest ih =>
    rw [List.map_cons, List.countP_cons]
    by_cases hentry : task.entry = some a
    · rw [List.filterMap_cons_some (b := .closes) (by simp [bracketOf, hentry]), ih]
      simp [hentry, List.replicate_succ]
    · rw [List.filterMap_cons_none (by simp [bracketOf, hentry]), ih]
      simp [hentry]

/-- The entry is in the phase, or its release was queued and has been delivered. -/
def Drained (s : XpSide) (a : ℕ) (phase : EntryPhase) : Prop :=
  s.At a phase ∨ phase = .releasing ∧ s.At a .released

theorem Drained.step {s' : XpSide} (h : s.Drained a phase)
    (hstep : ∀ {phase'}, s.At a phase' → s'.Drained a phase') : s'.Drained a phase := by
  rcases h with hat | ⟨hphase, hreleased⟩
  · exact hstep hat
  · rcases hstep hreleased with hstays | ⟨himpossible, -⟩
    · exact .inr ⟨hphase, hstays⟩
    · cases himpossible

/-- What is held is not released by the queue. -/
theorem Drained.held (h : s.Drained a .held) : s.At a .held := by
  rcases h with hat | ⟨himpossible, -⟩
  · exact hat
  · cases himpossible

theorem At.flushXpqueue (h : s.At a phase) (mtxLock : Bool) :
    (s.flushXpqueue mtxLock).2.Drained a phase := by
  rcases flushXpqueue_cases mtxLock s with ⟨heq, -⟩ | heq
  · rw [heq]
    exact .inl h
  · rw [heq]
    have hcalls : ({ s with
        queue := { s.queue with list := [], hasPendingTasks := false }
        calls := s.calls ++ s.queue.list.map fun task =>
          ⟨.commandEnd, task.xpRef, task.entry, true⟩ } : XpSide).callsOf a =
        s.callsOf a ++ List.replicate (s.pendingOf a) .closes := by
      rw [callsOf, List.filterMap_append, filterMap_bracketOf_flushed]
      rfl
    by_cases hphase : phase = .releasing
    · refine .inr ⟨hphase, ?_, ?_, rfl⟩
      · rw [hcalls, h.pending, if_pos hphase]
        exact h.alternating.closes (h.isOpen.2 (by rw [hphase]; decide))
      · rw [hcalls, h.pending, if_pos hphase]
        simp
    · refine .inl ⟨?_, ?_, ?_⟩
      · rw [hcalls, h.pending, if_neg hphase, List.replicate_zero, List.append_nil]
        exact h.alternating
      · rw [hcalls, h.pending, if_neg hphase, List.replicate_zero, List.append_nil]
        exact h.isOpen
      · rw [if_neg hphase]
        rfl

/-- With an empty queue, an entry that is not held got as many calls of `XPLMCommandEnd` as of
`XPLMCommandBegin`. -/
theorem At.balanced (h : s.At a phase) (hphase : phase ≠ .held) (hempty : s.queue.list = []) :
    (s.callsOf a).count .opens = (s.callsOf a).count .closes := by
  refine h.alternating.count_eq fun hopen => ?_
  have hreleasing : phase = .releasing := by
    cases phase with
    | released => exact absurd rfl (h.isOpen.1 hopen)
    | held => exact absurd rfl hphase
    | releasing => rfl
  have hpending := h.pending
  rw [if_pos hreleasing, pendingOf, hempty] at hpending
  cases hpending

/-! ### Other users of the queue -/

end XpSide

/-- What others do to the queue: other commands queue calls, and the flight loop flushes. -/
inductive XpqueueOp where
  | queueCommandEnd (results : QueueResults) (xpRef : Option ℕ)
  | flushXpqueue (mtxLock : Bool)
  deriving DecidableEq, Repr

namespace XpSide

/-- One such operation. -/
def exec (s : XpSide) : XpqueueOp → XpSide
  | .queueCommandEnd results xpRef => (s.queueCommandEnd results xpRef none).2
  | .flushXpqueue mtxLock => (s.flushXpqueue mtxLock).2

/-- Some of them, one after the other. -/
def execAll (s : XpSide) (ops : List XpqueueOp) : XpSide := ops.foldl exec s

variable {s : XpSide} {a : ℕ} {phase : EntryPhase}

theorem Delivers.execAll (h : s.Delivers) (ops : List XpqueueOp) : (s.execAll ops).Delivers := by
  induction ops generalizing s with
  | nil => exact h
  | cons op ops ih =>
    refine ih ?_
    cases op with
    | queueCommandEnd results xpRef => exact h.queueCommandEnd results xpRef none
    | flushXpqueue mtxLock => exact h.flushXpqueue mtxLock

/-- The others release what is in the queue, and nothing else. -/
theorem At.execAll (h : s.At a phase) (ops : List XpqueueOp) : (s.execAll ops).Drained a phase := by
  induction ops generalizing s phase with
  | nil => exact .inl h
  | cons op ops ih =>
    cases op with
    | queueCommandEnd results xpRef => exact ih (h.queue_other (by simp))
    | flushXpqueue mtxLock => exact (h.flushXpqueue mtxLock).step fun hat => ih hat

theorem queueCommandEnd_destructionPending (results : QueueResults) (xpRef entry : Option ℕ)
    (s : XpSide) : (s.queueCommandEnd results xpRef entry).2.queue.destructionPending =
      s.queue.destructionPending := by
  rcases queueCommandEnd_cases results xpRef entry s with ⟨-, heq⟩ | heq
  · exact congrArg (·.queue.destructionPending) heq
  · exact congrArg (·.2.queue.destructionPending) heq

theorem execAll_destructionPending (ops : List XpqueueOp) (s : XpSide) :
    (s.execAll ops).queue.destructionPending = s.queue.destructionPending := by
  induction ops generalizing s with
  | nil => rfl
  | cons op ops ih =>
    refine (ih _).trans ?_
    cases op with
    | queueCommandEnd results xpRef => exact queueCommandEnd_destructionPending results xpRef none s
    | flushXpqueue mtxLock =>
      rcases flushXpqueue_cases mtxLock s with ⟨heq, -⟩ | heq
      · exact congrArg (·.queue.destructionPending) heq
      · exact congrArg (·.2.queue.destructionPending) heq

end XpSide

end XprcServer
