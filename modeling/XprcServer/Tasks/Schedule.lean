import XprcServer.Basic
import XprcServer.Lists.Leftovers

/-!
# The task schedule

`task_schedule.c`: a queue of tasks for each of two phases, which is a preallocated list.  A task is
unscheduled by deleting its item, without a destructor; cleaning the schedule compacts the queues,
and destroying it unschedules what is left and destroys the queues with `free`.

`Holds seq left` says which tasks are in the queues, and which ones were unscheduled and are still
in an item.

* `Holds.scheduleTask`, `Holds.unscheduleTask`, `Holds.cleanSchedule`, `Holds.destroyTaskSchedule` :
  what calls do to these.

The schedule itself is not NULL.  Nothing in it is changed while a call waits for the mutex.
-/

namespace XprcServer

open Lib

/-- `TASK_SCHEDULE_NUM_TASK_QUEUES` -/
def taskScheduleNumTaskQueues : ℕ := 2

/-- `TASK_SCHEDULE_POST_PROCESSING` -/
def taskSchedulePostProcessing : ℤ := -1

/-- `free`, the only destructor for tasks -/
inductive TaskDestructor where
  | free
  deriving DecidableEq

/-- `task_schedule_t`, with tasks `τ` -/
structure TaskSchedule (τ : Type) where
  queues : Fin taskScheduleNumTaskQueues → Option PreallocList
  /-- the memory of the queues, with the destructor calls for what was in them -/
  memory : Fin taskScheduleNumTaskQueues → PreallocHeap τ TaskDestructor
  destructionPending : Bool

/-- The queue of a phase, unless `phase < 0 || phase >= TASK_SCHEDULE_NUM_TASK_QUEUES` -/
def phaseQueue (phase : ℤ) : Option (Fin taskScheduleNumTaskQueues) :=
  if h : phase < 0 ∨ (taskScheduleNumTaskQueues : ℤ) ≤ phase then none
  else some ⟨phase.toNat, by omega⟩

namespace TaskSchedule

variable {τ : Type} [DecidableEq τ]

/-- `create_task_schedule` when it succeeds -/
def create (τ : Type) : TaskSchedule τ :=
  ⟨fun _ => some (createPreallocatedList τ TaskDestructor).1,
    fun _ => (createPreallocatedList τ TaskDestructor).2, false⟩

variable (s : TaskSchedule τ)

/-- A queue that was changed, and its memory -/
def setQueue (i : Fin taskScheduleNumTaskQueues) (queue : Option PreallocList)
    (heap : PreallocHeap τ TaskDestructor) : TaskSchedule τ :=
  { s with queues := Function.update s.queues i queue, memory := Function.update s.memory i heap }

/-- `lock_schedule`; `locked` tells whether the mutex could be locked. -/
def lockSchedule (locked : Bool) : ErrorCode :=
  if s.destructionPending then .destructionPending
  else if !locked then .mutexFailed
  else .none

/-- `schedule_task` -/
def scheduleTask (alloc : Bool) (task : Option τ) (phase : ℤ) : Access
    (ErrorCode × TaskSchedule τ) :=
  match task with
  | none => some (.unspecific, s)
  | some task =>
    match phaseQueue phase with
    | none => some (.taskScheduleInvalidPhase, s)
    | some i =>
      if s.destructionPending then some (.destructionPending, s)
      else match s.queues i with
        | none => some (.unspecific, s)
        | some queue => do
          let (ok, queue, heap) ← queue.append (s.memory i) alloc (some task)
          return (if ok then .none else .unspecific, s.setQueue i (some queue) heap)

/-- `unschedule_task_queue_item` -/
def unscheduleTaskQueueItem (i : Fin taskScheduleNumTaskQueues) (queue : PreallocList)
    (item : ItemAddress) : Access (ErrorCode × TaskSchedule τ) := do
  let (ok, queue, heap) ← queue.deleteItem (s.memory i) (some item) none true
  return (if ok then .none else .unspecific, s.setQueue i (some queue) heap)

/-- The loop of `unschedule_task` -/
def unscheduleTaskLoop (i : Fin taskScheduleNumTaskQueues) (queue : PreallocList) (task : τ) :
    ℕ → Option ItemAddress → Access (ErrorCode × TaskSchedule τ)
  | _, none => some (.unspecific, s)
  | 0, some _ => none
  | fuel + 1, some item => do
    let cell ← (s.memory i).item item
    if cell.value = some task then s.unscheduleTaskQueueItem i queue item
    else unscheduleTaskLoop i queue task fuel cell.nextInUse

/-- `unschedule_task`.  There are no more items than the blocks allocated so far have places. -/
def unscheduleTask (task : Option τ) (phase : ℤ) : Access (ErrorCode × TaskSchedule τ) :=
  match task with
  | none => some (.unspecific, s)
  | some task =>
    match phaseQueue phase with
    | none => some (.taskScheduleInvalidPhase, s)
    | some i =>
      match s.queues i with
      | none => some (.unspecific, s)
      | some queue => s.unscheduleTaskLoop i queue task
          ((s.memory i).unused * preallocListBlockSize)
          queue.firstInUseItem

/-- The loop of `clean_schedule`; `alloc` are the outcomes of allocations for each queue. -/
def cleanQueues (alloc : Fin taskScheduleNumTaskQueues → ℕ → Bool) :
    List (Fin taskScheduleNumTaskQueues) → Bool → TaskSchedule τ → Access (Bool × TaskSchedule τ)
  | [], success, s => some (success, s)
  | i :: rest, success, s =>
    match s.queues i with
    | none => cleanQueues alloc rest false s
    | some queue => do
      let (ok, queue, heap) ← queue.compact (s.memory i) (alloc i) none false
      cleanQueues alloc rest (success && ok) (s.setQueue i (some queue) heap)

/-- `clean_schedule` -/
def cleanSchedule (alloc : Fin taskScheduleNumTaskQueues → ℕ → Bool) :
    Access (ErrorCode × TaskSchedule τ) :=
  if s.destructionPending then some (.destructionPending, s)
  else do
    let (success, s) ← cleanQueues alloc (List.finRange taskScheduleNumTaskQueues) true s
    return (if success then .none else .unspecific, s)

/-- The inner loop of `destroy_task_schedule`, which unschedules the tasks of a queue.  At an item
without a task it never gets any further. -/
def unscheduleItems (i : Fin taskScheduleNumTaskQueues) :
    ℕ → Option ItemAddress → ErrorCode → TaskSchedule τ → Access (ErrorCode × TaskSchedule τ)
  | _, none, err, s => some (err, s)
  | 0, some _, _, _ => none
  | fuel + 1, some item, err, s => do
    let cell ← (s.memory i).item item
    let task ← cell.value
    let (taskErr, s) ← s.unscheduleTask (some task) i
    unscheduleItems i fuel cell.nextInUse (if taskErr ≠ .none then taskErr else err) s

/-- The loop around it -/
def unscheduleQueues : List (Fin taskScheduleNumTaskQueues) → ErrorCode → TaskSchedule τ →
    Access (ErrorCode × TaskSchedule τ)
  | [], err, s => some (err, s)
  | i :: rest, err, s =>
    match s.queues i with
    | none => unscheduleQueues rest err s
    | some queue => do
      let (err, s) ← unscheduleItems i ((s.memory i).unused * preallocListBlockSize)
        queue.firstInUseItem err s
      unscheduleQueues rest err s

/-- The loop of `destroy_task_schedule` that destroys the queues -/
def destroyQueues : List (Fin taskScheduleNumTaskQueues) → ErrorCode → TaskSchedule τ →
    Access (ErrorCode × TaskSchedule τ)
  | [], err, s => some (err, s)
  | i :: rest, err, s =>
    match s.queues i with
    | none => destroyQueues rest err s
    | some queue =>
      if queue.size ≠ 0 then destroyQueues rest .taskScheduleStillScheduled s
      else do
        let heap ← queue.destroy (s.memory i) (some .free) false
        destroyQueues rest err (s.setQueue i none heap)

/-- `destroy_task_schedule`; the mutex is locked twice. -/
def destroyTaskSchedule (locked relocked : Bool) : Access (ErrorCode × TaskSchedule τ) :=
  let err := s.lockSchedule locked
  if err ≠ .none then some (err, s)
  else
    let s := { s with destructionPending := true }
    if !relocked then some (.unspecific, s)
    else do
      let (err, s) ← unscheduleQueues (List.finRange taskScheduleNumTaskQueues) err s
      destroyQueues (List.finRange taskScheduleNumTaskQueues) err s

/-- The tasks that have been passed to `free` -/
def freed : List (Option τ) :=
  (List.finRange taskScheduleNumTaskQueues).flatMap fun i => (s.memory i).destroyed.map Prod.snd

end TaskSchedule

/-! ### What is in the queues -/

namespace TaskSchedule

variable {τ : Type}

/-- The items in each queue with their tasks, and the tasks left in items that were deleted. -/
structure Holds (s : TaskSchedule τ)
    (seq : Fin taskScheduleNumTaskQueues → List (ItemAddress × Option τ))
    (left : Fin taskScheduleNumTaskQueues → List (ItemAddress × Option TaskDestructor × τ)) :
    Prop where
  queue : ∀ i, ∃ queue, s.queues i = some queue ∧ queue.Keeps (s.memory i) (seq i) (left i)
  tasks : ∀ i, ∀ e ∈ seq i, e.2 ≠ none
  plain : ∀ i, ∀ e ∈ left i, e.2.1 = none
  destroyed : ∀ i, (s.memory i).destroyed = []

variable {s : TaskSchedule τ} {seq : Fin taskScheduleNumTaskQueues → List (ItemAddress × Option τ)}
  {left : Fin taskScheduleNumTaskQueues → List (ItemAddress × Option TaskDestructor × τ)}

theorem holds_create : (create τ).Holds (fun _ => []) fun _ => [] :=
  ⟨fun _ => ⟨_, rfl, PreallocList.keeps_create⟩, (fun _ _ he => nomatch he),
    (fun _ _ he => nomatch he), fun _ => rfl⟩

/-- One queue has changed. -/
theorem Holds.setQueue (h : s.Holds seq left) {i : Fin taskScheduleNumTaskQueues}
    {queue : PreallocList}
    {heap : PreallocHeap τ TaskDestructor} {seqᵢ : List (ItemAddress × Option τ)}
    {leftᵢ : List (ItemAddress × Option TaskDestructor × τ)} (hkeeps : queue.Keeps heap seqᵢ leftᵢ)
    (htasks : ∀ e ∈ seqᵢ, e.2 ≠ none) (hplain : ∀ e ∈ leftᵢ, e.2.1 = none)
    (hdestroyed : heap.destroyed = []) :
    (s.setQueue i (some queue) heap).Holds (Function.update seq i seqᵢ)
      (Function.update left i leftᵢ) := by
  refine ⟨fun j => ?_, fun j => ?_, fun j => ?_, fun j => ?_⟩
  all_goals
    by_cases hj : j = i
    · subst hj
      simp only [TaskSchedule.setQueue, Function.update_self]
      first
        | exact ⟨queue, rfl, hkeeps⟩
        | assumption
    · simp only [TaskSchedule.setQueue, Function.update_of_ne hj]
      first
        | exact h.queue j
        | exact h.tasks j
        | exact h.plain j
        | exact h.destroyed j

/-- Nothing but the memory for the queue `i` was changed. -/
def OnlyQueue (s s' : TaskSchedule τ) (i : Fin taskScheduleNumTaskQueues) : Prop :=
  s'.destructionPending = s.destructionPending ∧ ∀ j, j ≠ i → s'.memory j = s.memory j

theorem onlyQueue_setQueue (s : TaskSchedule τ) (i : Fin taskScheduleNumTaskQueues)
    (queue : Option PreallocList) (heap : PreallocHeap τ TaskDestructor) :
    s.OnlyQueue (s.setQueue i queue heap) i :=
  ⟨rfl, fun _ hj => Function.update_of_ne hj _ _⟩

/-- **A task is added at the end of its queue**, unless that is refused. -/
theorem Holds.scheduleTask (h : s.Holds seq left) (alloc : Bool) (task : Option τ) (phase : ℤ) :
    (∃ err, err ≠ .none ∧ s.scheduleTask alloc task phase = some (err, s)) ∨
      ∃ i t item s', phaseQueue phase = some i ∧ task = some t ∧
        s.scheduleTask alloc task phase = some (.none, s') ∧
        s'.Holds (Function.update seq i (seq i ++ [(item, some t)])) left ∧ s.OnlyQueue s' i ∧
        ∀ a, (s'.memory i).next a =
          if ((seq i).map Prod.fst).getLast? = some a then some item else (s.memory i).next a := by
  unfold TaskSchedule.scheduleTask
  cases task with
  | none => exact .inl ⟨_, by decide, rfl⟩
  | some t =>
    dsimp only
    cases hphase : phaseQueue phase with
    | none => exact .inl ⟨_, by decide, rfl⟩
    | some i =>
      dsimp only
      cases hpending : s.destructionPending with
      | true => exact .inl ⟨_, by decide, rfl⟩
      | false =>
        obtain ⟨queue, hqueue, hkeeps⟩ := h.queue i
        rw [hqueue, if_neg Bool.false_ne_true]
        dsimp only
        rcases hkeeps.append alloc (some t) with ⟨happend, -⟩ |
          ⟨item, queue', heap', happend, hkeeps', hdestroyed, -, -, hnext⟩
        · refine .inl ⟨.unspecific, by decide, ?_⟩
          have hsame : s.setQueue i (some queue) (s.memory i) = s := by
            rw [TaskSchedule.setQueue, ← hqueue, Function.update_eq_self, Function.update_eq_self]
          rw [happend, Option.bind_eq_bind, Option.bind_some]
          dsimp only
          rw [hsame]
          rfl
        · refine .inr ⟨i, t, item, _, rfl, rfl, by rw [happend]; rfl, ?_,
            onlyQueue_setQueue s i _ _, fun a => ?_⟩
          · have hset := h.setQueue (i := i) hkeeps' (fun e he => ?_) (h.plain i)
              (hdestroyed.trans (h.destroyed i))
            · rwa [Function.update_eq_self] at hset
            · rcases List.mem_append.1 he with he | he
              · exact h.tasks i e he
              · rw [List.mem_singleton.1 he]
                exact Option.some_ne_none t
          · obtain ⟨⟨chain, hbuilt, -⟩, -, -⟩ := hkeeps.stands
            rw [← hbuilt.linked.last_eq, ← hnext]
            simp only [TaskSchedule.setQueue, Function.update_self]

/-- What `unschedule_task` finds among the items it has not yet passed -/
theorem unscheduleTaskLoop_spec [DecidableEq τ] {i : Fin taskScheduleNumTaskQueues}
    {queue : PreallocList} (hkeeps : queue.Keeps (s.memory i) (seq i) (left i)) (t : τ)
    {before rest : List (ItemAddress × Option τ)} (hseq : seq i = before ++ rest)
    (hbefore : some t ∉ before.map Prod.snd) {p : Option ItemAddress}
    (hlinked : Linked (s.memory i).next p (rest.map Prod.fst)) {fuel : ℕ}
    (hfuel : rest.length ≤ fuel) :
    (some t ∉ (seq i).map Prod.snd ∧ s.unscheduleTaskLoop i queue t fuel p =
      some (.unspecific, s)) ∨
      ∃ before' a behind, seq i = before' ++ (a, some t) :: behind ∧ some t ∉ before'.map Prod.snd ∧
        s.unscheduleTaskLoop i queue t fuel p = s.unscheduleTaskQueueItem i queue a := by
  induction rest generalizing before p fuel with
  | nil =>
    obtain rfl : p = none := hlinked
    refine .inl ⟨?_, by cases fuel <;> rfl⟩
    rwa [hseq, List.append_nil]
  | cons e rest ih =>
    obtain ⟨rfl, hrest⟩ := hlinked
    obtain ⟨fuel, rfl, hle⟩ := exists_fuel hfuel
    have hmem : e ∈ seq i := by rw [hseq]; exact List.mem_append_right _ List.mem_cons_self
    obtain ⟨⟨chain, hbuilt, -⟩, -, -⟩ := hkeeps.stands
    obtain ⟨-, cell, hcell, -, hvalue⟩ := hbuilt.live e hmem
    rw [PreallocHeap.next_eq hcell] at hrest
    rw [unscheduleTaskLoop, hcell, Option.bind_eq_bind, Option.bind_some, hvalue]
    by_cases hfound : e.2 = some t
    · rw [if_pos hfound]
      exact .inr ⟨before, e.1, rest, by rw [hseq, ← hfound], hbefore, rfl⟩
    · rw [if_neg hfound]
      have hseq' : seq i = before ++ [e] ++ rest := by rw [hseq, List.append_assoc]; rfl
      refine ih hseq' ?_ hrest hle
      rw [List.map_append, List.mem_append, not_or]
      exact ⟨hbefore, fun hmem' => hfound (List.mem_singleton.1 hmem').symm⟩

/-- **The first entry of a task is taken out of its queue**, and the task stays in its item. -/
theorem Holds.unscheduleTask [DecidableEq τ] (h : s.Holds seq left) (task : Option τ) (phase : ℤ) :
    (∃ err, err ≠ .none ∧ s.unscheduleTask task phase = some (err, s) ∧
        ∀ i t, phaseQueue phase = some i → task = some t → some t ∉ (seq i).map Prod.snd) ∨
      ∃ i t before a behind s', phaseQueue phase = some i ∧ task = some t ∧
        seq i = before ++ (a, some t) :: behind ∧ some t ∉ before.map Prod.snd ∧
        s.unscheduleTask task phase = some (.none, s') ∧
        s'.Holds (Function.update seq i (before ++ behind))
          (Function.update left i ((a, none, t) :: left i)) ∧
        s.OnlyQueue s' i ∧
        ∀ c, (s'.memory i).next c = if (before.map Prod.fst).getLast? = some c then
          (behind.map Prod.fst).head? else (s.memory i).next c := by
  unfold TaskSchedule.unscheduleTask
  cases task with
  | none => exact .inl ⟨_, by decide, rfl, nofun⟩
  | some t =>
    dsimp only
    cases hphase : phaseQueue phase with
    | none => exact .inl ⟨_, by decide, rfl, nofun⟩
    | some i =>
      obtain ⟨queue, hqueue, hkeeps⟩ := h.queue i
      obtain ⟨⟨chain, hbuilt, -⟩, hfresh, -⟩ := hkeeps.stands
      dsimp only
      rw [hqueue]
      dsimp only
      rcases unscheduleTaskLoop_spec hkeeps t
        (List.nil_append _).symm List.not_mem_nil hbuilt.linked.forward
        (PreallocList.length_le_unused hbuilt hfresh) with ⟨hnone, hloop⟩ |
        ⟨before, a, behind, hseq, hbefore, hloop⟩
      · refine .inl ⟨_, by decide, hloop, fun j t' hj ht' => ?_⟩
        cases hj
        cases ht'
        exact hnone
      · have hmem : (a, some t) ∈ seq i := by rw [hseq]; simp
        have hshape := hbuilt.allocated a.1 (hbuilt.live _ hmem).1
        rcases hkeeps.deleteItem hshape none true with
          ⟨before', value, behind', hseq', queue', heap', hdelete, hkeeps', hdestroyed,
            hnext⟩ | ⟨hnot, -⟩
        swap
        · exact absurd (List.mem_map_of_mem (f := Prod.fst) hmem) hnot
        -- an item is in the sequence once
        have hnodup := hbuilt.linked.forward.nodup
        rw [hseq', List.map_append, List.map_cons, List.nodup_append, List.nodup_cons] at hnodup
        have hbefore' : (a, some t) ∉ before' := fun hin =>
          hnodup.2.2 a (List.mem_map_of_mem (f := Prod.fst) hin) a List.mem_cons_self rfl
        have hnot : a ∉ behind'.map Prod.fst := hnodup.2.1.1
        have hbehind' : (a, some t) ∉ behind' := fun hin =>
            hnot (List.mem_map_of_mem (f := Prod.fst) hin)
        obtain ⟨rfl, heq, rfl⟩ :=
          (List.append_cons_inj_of_notMem hbefore' hbehind').1 (hseq'.symm.trans hseq)
        obtain rfl := (Prod.mk.inj heq).2
        have hprev : (s.memory i).prev a = (before'.map Prod.fst).getLast? := by
          have hlinked := hbuilt.linked
          rw [hseq', List.map_append, List.map_cons] at hlinked
          exact hlinked.prev_eq
        have hnext' : (s.memory i).next a = (behind'.map Prod.fst).head? := by
          have hlinked := hbuilt.linked
          rw [hseq', List.map_append, List.map_cons] at hlinked
          exact hlinked.next_eq
        refine .inr ⟨i, t, before', a, behind', s.setQueue i (some queue') heap', rfl,
          rfl, hseq, hbefore, ?_, h.setQueue hkeeps' (fun e he => ?_) (fun e he => ?_)
            (hdestroyed.trans ?_),
          onlyQueue_setQueue s i _ _, fun c => ?_⟩
        · rw [hloop, TaskSchedule.unscheduleTaskQueueItem, hdelete]
          rfl
        · refine h.tasks i e ?_
          rw [hseq]
          exact (List.mem_append.1 he).elim (List.mem_append_left _)
            fun he => List.mem_append_right _ (List.mem_cons_of_mem _ he)
        · rcases List.mem_cons.1 he with rfl | he
          · rfl
          · exact h.plain i e he
        · rw [h.destroyed i]
          rfl
        · rw [← hprev, ← hnext', ← hnext]
          simp only [TaskSchedule.setQueue, Function.update_self]

theorem flatMap_release_plain {entries : List (ItemAddress × Option TaskDestructor × τ)}
    (h : ∀ e ∈ entries, e.2.1 = none) (valueDestructor : Option TaskDestructor) :
    (entries.flatMap fun e => release valueDestructor false e.2) =
      entries.flatMap fun e => valueDestructor.toList.map fun destructor =>
        (destructor, some e.2.2) := by
  refine List.flatMap_congr fun e he => ?_
  obtain ⟨a, recorded, value⟩ := e
  obtain rfl : recorded = none := h _ he
  rfl

/-- The queues are compacted one after the other; where that succeeds nothing is left, and nothing
was freed. -/
theorem Holds.cleanQueues (h : s.Holds seq left) (alloc : Fin taskScheduleNumTaskQueues → ℕ → Bool)
    (is : List (Fin taskScheduleNumTaskQueues)) (success : Bool) :
    ∃ success' s' seq' left', TaskSchedule.cleanQueues alloc is success s = some (success', s') ∧
      s'.Holds seq' left' ∧ (∀ i, (seq' i).map Prod.snd = (seq i).map Prod.snd) ∧
      s'.destructionPending = s.destructionPending ∧
      (success' = true → success = true ∧ (∀ i ∈ is, left' i = []) ∧ ∀ i, i ∉ is →
        left' i = left i) ∧
      ((∀ i b, alloc i b = true) → success' = success) := by
  induction is generalizing s seq left success with
  | nil =>
    exact ⟨success, s, seq, left, rfl, h, fun _ => rfl, rfl,
      fun hsuccess => ⟨hsuccess, fun _ hi => absurd hi List.not_mem_nil, fun _ _ => rfl⟩,
        fun _ => rfl⟩
  | cons i is ih =>
    obtain ⟨queue, hqueue, hkeeps⟩ := h.queue i
    rw [TaskSchedule.cleanQueues, hqueue]
    dsimp only
    rcases hkeeps.compact (alloc i) none false with
      ⟨queue', heap', seqᵢ, released, hcompact, hkeeps', hvalues, hdestroyed, hperm⟩ |
      ⟨heap', hcompact, ⟨b, halloc⟩, hkeeps', hdestroyed⟩
    · have hnothing : released = [] := by
        have hnil :
            ((left i).flatMap fun e => (none : Option TaskDestructor).toList.map fun destructor =>
            (destructor, some e.2.2)) = [] := List.flatMap_eq_nil_iff.2 fun _ _ => rfl
        rw [flatMap_release_plain (h.plain i), hnil] at hperm
        exact hperm.eq_nil
      have htasks : ∀ e ∈ seqᵢ, e.2 ≠ none := by
        intro e he hnone
        have hmem : e.2 ∈ (seq i).map Prod.snd := hvalues ▸ List.mem_map_of_mem he
        obtain ⟨e', he', heq⟩ := List.mem_map.1 hmem
        exact h.tasks i e' he' (heq.trans hnone)
      obtain ⟨success', s', seq', left', hclean, h', hseq', hpending, hdone, hall⟩ :=
        ih (h.setQueue (i := i) hkeeps' htasks (fun _ he => nomatch he)
          (by rw [hdestroyed, h.destroyed i, hnothing]; rfl)) (success && true)
      refine ⟨success', s', seq', left', ?_, h', fun j => ?_, hpending, fun hsuccess => ?_,
        fun halloc => ?_⟩
      · rw [hcompact]
        exact hclean
      · rw [hseq']
        by_cases hj : j = i
        · rw [hj, Function.update_self, hvalues]
        · rw [Function.update_of_ne hj]
      · obtain ⟨hbefore, hin, hout⟩ := hdone hsuccess
        refine ⟨(Bool.and_true success).symm.trans hbefore, fun j hj => ?_, fun j hj => ?_⟩
        · by_cases hmem : j ∈ is
          · exact hin j hmem
          · obtain rfl := (List.mem_cons.1 hj).resolve_right hmem
            rw [hout j hmem, Function.update_self]
        · rw [List.mem_cons, not_or] at hj
          rw [hout j hj.2, Function.update_of_ne hj.1]
      · rw [hall halloc, Bool.and_true]
    · obtain ⟨success', s', seq', left', hclean, h', hseq', hpending, hdone, -⟩ :=
        ih (h.setQueue (i := i) hkeeps' (h.tasks i) (h.plain i) (hdestroyed.trans (h.destroyed i)))
          (success && false)
      refine ⟨success', s', seq', left', ?_, h', fun j => ?_, hpending, fun hsuccess => ?_,
        fun hall => ?_⟩
      · rw [hcompact]
        exact hclean
      · rw [hseq', Function.update_eq_self]
      · rw [Bool.and_false] at hdone
        cases (hdone hsuccess).1
      · rw [hall i b] at halloc
        cases halloc

/-- **Cleaning the schedule** drops the tasks that were unscheduled, unless there is no memory. -/
theorem Holds.cleanSchedule (h : s.Holds seq left) (hpending : s.destructionPending = false)
    (alloc : Fin taskScheduleNumTaskQueues → ℕ → Bool) :
    ∃ err s' seq' left', s.cleanSchedule alloc = some (err, s') ∧ s'.Holds seq' left' ∧
      (∀ i, (seq' i).map Prod.snd = (seq i).map Prod.snd) ∧ s'.destructionPending = false ∧
      (err = .none → ∀ i, left' i = []) ∧ ((∀ i b, alloc i b = true) → err = .none) := by
  obtain ⟨success, s', seq', left', hclean, h', hseq, hpending', hdone, hall⟩ :=
    h.cleanQueues alloc (List.finRange taskScheduleNumTaskQueues) true
  refine ⟨if success then .none else .unspecific, s', seq', left', ?_, h', hseq,
    hpending'.trans hpending, fun herr i => ?_, fun halloc => if_pos (hall halloc)⟩
  · rw [TaskSchedule.cleanSchedule, hpending, hclean]
    rfl
  · cases success with
    | false => cases herr
    | true => exact (hdone rfl).2.1 i (List.mem_finRange i)

/-! ### Destruction -/

variable [DecidableEq τ]

/-- All tasks of a queue are unscheduled, the first one each time. -/
theorem Holds.unscheduleItems (h : s.Holds seq left) {i : Fin taskScheduleNumTaskQueues}
    {rest : List (ItemAddress × Option τ)} (hseq : seq i = rest) {fuel : ℕ}
    (hfuel : rest.length ≤ fuel) (err : ErrorCode) :
    ∃ s' leftᵢ, TaskSchedule.unscheduleItems i fuel (rest.map Prod.fst).head? err s =
      some (err, s') ∧
      s'.Holds (Function.update seq i []) (Function.update left i leftᵢ) ∧
      (leftᵢ.map fun e => some e.2.2).Perm
        (rest.map Prod.snd ++ (left i).map fun e => some e.2.2) := by
  induction rest generalizing s seq left fuel with
  | nil =>
    refine ⟨s, left i, by cases fuel <;> rfl, ?_, .refl _⟩
    rw [← hseq, Function.update_eq_self, Function.update_eq_self]
    exact h
  | cons e rest ih =>
    obtain ⟨fuel, rfl, hle⟩ := exists_fuel hfuel
    have hmem : e ∈ seq i := by rw [hseq]; exact List.mem_cons_self
    obtain ⟨t, ht⟩ := Option.ne_none_iff_exists'.1 (h.tasks i e hmem)
    obtain ⟨queue, hqueue, hkeeps⟩ := h.queue i
    obtain ⟨⟨chain, hbuilt, -⟩, -, -⟩ := hkeeps.stands
    obtain ⟨-, cell, hcell, -, hvalue⟩ := hbuilt.live e hmem
    have hnext : cell.nextInUse = (rest.map Prod.fst).head? := by
      have hlinked := hbuilt.linked.forward
      rw [hseq] at hlinked
      rw [← PreallocHeap.next_eq hcell]
      exact hlinked.2.eq_head
    have hphase : phaseQueue i = some i := by
      have hi := i.isLt
      rw [phaseQueue, dif_neg (by omega)]
      rfl
    rw [List.map_cons, List.head?_cons, TaskSchedule.unscheduleItems, hcell, Option.bind_eq_bind,
      Option.bind_some, hvalue, ht, Option.bind_eq_bind, Option.bind_some, hnext]
    rcases h.unscheduleTask (some t) i with ⟨-, -, -, hnone⟩ |
      ⟨j, t', before, a, behind, s', hj, ht', hseq', hbefore, hrun, h', -, -⟩
    · exact absurd (ht ▸ List.mem_map_of_mem hmem) (hnone i t hphase rfl)
    · cases hphase.symm.trans hj
      cases ht'
      -- the task is found at once
      obtain rfl : before = [] := by
        cases before with
        | nil => rfl
        | cons e' before =>
          obtain ⟨rfl, -⟩ := List.cons.inj (hseq.symm.trans hseq')
          rw [← ht] at hbefore
          exact absurd List.mem_cons_self hbefore
      obtain ⟨rfl, rfl⟩ := List.cons.inj (hseq.symm.trans hseq')
      obtain ⟨s'', leftᵢ, hrest, h'', hperm⟩ := ih h' (Function.update_self i _ _) hle
      rw [Function.update_idem, Function.update_idem] at h''
      refine ⟨s'', leftᵢ, ?_, h'', hperm.trans ?_⟩
      · rw [hrun]
        exact hrest
      · rw [Function.update_self, List.map_cons]
        exact List.perm_middle

theorem Holds.unscheduleQueues (h : s.Holds seq left) {is : List (Fin taskScheduleNumTaskQueues)}
    (hnodup : is.Nodup) (err : ErrorCode) :
    ∃ s' seq' left', TaskSchedule.unscheduleQueues is err s = some (err, s') ∧ s'.Holds seq' left' ∧
      (∀ i, i ∉ is → seq' i = seq i ∧ left' i = left i) ∧
      ∀ i ∈ is, seq' i = [] ∧ ((left' i).map fun e => some e.2.2).Perm
        ((seq i).map Prod.snd ++ (left i).map fun e => some e.2.2) := by
  induction is generalizing s seq left with
  | nil => exact ⟨s, seq, left, rfl, h, fun _ _ => ⟨rfl, rfl⟩,
      fun _ hi => absurd hi List.not_mem_nil⟩
  | cons i is ih =>
    obtain ⟨hi, hnodup⟩ := List.nodup_cons.1 hnodup
    obtain ⟨queue, hqueue, hkeeps⟩ := h.queue i
    obtain ⟨⟨chain, hbuilt, -⟩, hfresh, -⟩ := hkeeps.stands
    obtain ⟨s₁, leftᵢ, hitems, h₁, hperm⟩ :=
      h.unscheduleItems rfl (PreallocList.length_le_unused hbuilt hfresh) err
    rw [← hbuilt.linked.first_eq] at hitems
    obtain ⟨s', seq', left', hrest, h', hsame, hperms⟩ := ih h₁ hnodup
    refine ⟨s', seq', left', ?_, h', fun j hj => ?_, fun j hj => ?_⟩
    · rw [TaskSchedule.unscheduleQueues, hqueue]
      dsimp only
      rw [hitems]
      exact hrest
    · rw [List.mem_cons, not_or] at hj
      rw [(hsame j hj.2).1, (hsame j hj.2).2, Function.update_of_ne hj.1,
        Function.update_of_ne hj.1]
      exact ⟨rfl, rfl⟩
    · by_cases hji : j = i
      · rw [hji, (hsame i hi).1, (hsame i hi).2, Function.update_self, Function.update_self]
        exact ⟨rfl, hperm⟩
      · have hp := hperms j ((List.mem_cons.1 hj).resolve_left hji)
        rwa [Function.update_of_ne hji, Function.update_of_ne hji] at hp

omit [DecidableEq τ] in
variable (left) in
/-- Queues without tasks in use are destroyed, and what is left in them is passed to `free`. -/
theorem destroyQueues_spec {is : List (Fin taskScheduleNumTaskQueues)} (hnodup : is.Nodup)
    (hqueues : ∀ i ∈ is, ∃ queue, s.queues i = some queue ∧ queue.Keeps (s.memory i) [] (left i) ∧
      (∀ e ∈ left i, e.2.1 = none) ∧ (s.memory i).destroyed = []) (err : ErrorCode) :
    ∃ s', TaskSchedule.destroyQueues is err s = some (err, s') ∧
      (∀ i ∈ is, s'.queues i = none ∧
        ((s'.memory i).destroyed.map Prod.snd).Perm ((left i).map fun e => some e.2.2)) ∧
      ∀ i, i ∉ is → s'.queues i = s.queues i ∧ s'.memory i = s.memory i := by
  induction is generalizing s with
  | nil => exact ⟨s, rfl, fun _ hi => absurd hi List.not_mem_nil, fun _ _ => ⟨rfl, rfl⟩⟩
  | cons i is ih =>
    obtain ⟨hi, hnodup⟩ := List.nodup_cons.1 hnodup
    obtain ⟨queue, hqueue, hkeeps, hplain, hdestroyed⟩ := hqueues i List.mem_cons_self
    obtain ⟨heap', released, hdestroy, -, hdestroyed', hperm⟩ := hkeeps.destroy (some .free) false
    have hother : ∀ j, j ≠ i → (s.setQueue i none heap').queues j = s.queues j ∧
        (s.setQueue i none heap').memory j = s.memory j := fun j hj =>
      ⟨Function.update_of_ne hj _ _, Function.update_of_ne hj _ _⟩
    obtain ⟨s', hrest, hdone, hsame⟩ := ih (s := s.setQueue i none heap') hnodup fun j hj => by
      have hji : j ≠ i := fun heq => hi (heq ▸ hj)
      rw [(hother j hji).1, (hother j hji).2]
      exact hqueues j (List.mem_cons_of_mem i hj)
    refine ⟨s', ?_, fun j hj => ?_, fun j hj => ?_⟩
    · rw [TaskSchedule.destroyQueues, hqueue]
      dsimp only
      rw [if_neg (by rw [hkeeps.stands.size]; simp), hdestroy]
      exact hrest
    · by_cases hmem : j ∈ is
      · exact hdone j hmem
      · obtain rfl := (List.mem_cons.1 hj).resolve_right hmem
        rw [(hsame j hmem).1, (hsame j hmem).2]
        refine ⟨Function.update_self _ _ _, ?_⟩
        have hmemory : (s.setQueue j none heap').memory j = heap' := Function.update_self _ _ _
        rw [hmemory, hdestroyed', hdestroyed, List.nil_append]
        refine (hperm.map Prod.snd).trans ?_
        have hnil :
            (PreallocList.inUseEntries [] : List (ItemAddress × Option TaskDestructor × τ)) = [] :=
              rfl
        rw [hnil, List.nil_append, flatMap_release_plain hplain, List.map_flatMap,
          List.map_eq_flatMap]
        exact .refl _
    · rw [List.mem_cons, not_or] at hj
      rw [(hsame j hj.2).1, (hsame j hj.2).2]
      exact hother j hj.1

/-- **Destroying the schedule** passes all tasks to `free` that are in the queues or left in them,
none of them before all have been unscheduled. -/
theorem Holds.destroyTaskSchedule (h : s.Holds seq left) (hpending : s.destructionPending = false) :
    ∃ s₁ s', TaskSchedule.unscheduleQueues (List.finRange taskScheduleNumTaskQueues) .none
        { s with destructionPending := true } = some (.none, s₁) ∧
      (∀ i, ∃ queue, s₁.queues i = some queue ∧ queue.firstInUseItem = none ∧
        (s₁.memory i).destroyed = []) ∧
      TaskSchedule.destroyQueues (List.finRange taskScheduleNumTaskQueues) .none s₁ =
        some (.none, s') ∧
      s.destroyTaskSchedule true true = some (.none, s') ∧
      ∀ i, s'.queues i = none ∧ ((s'.memory i).destroyed.map Prod.snd).Perm
        ((seq i).map Prod.snd ++ (left i).map fun e => some e.2.2) := by
  have hpendingHolds : TaskSchedule.Holds { s with destructionPending := true } seq left :=
    ⟨h.queue, h.tasks, h.plain, h.destroyed⟩
  obtain ⟨s₁, seq', left', hunschedule, h₁, -, hperm⟩ :=
    hpendingHolds.unscheduleQueues (List.nodup_finRange taskScheduleNumTaskQueues) .none
  obtain ⟨s', hdestroy, hdone, -⟩ := destroyQueues_spec left'
    (List.nodup_finRange taskScheduleNumTaskQueues) (fun i _ => by
      obtain ⟨queue, hqueue, hkeeps⟩ := h₁.queue i
      rw [(hperm i (List.mem_finRange i)).1] at hkeeps
      exact ⟨queue, hqueue, hkeeps, h₁.plain i, h₁.destroyed i⟩) .none
  refine ⟨s₁, s', hunschedule, fun i => ?_, hdestroy, ?_, fun i => ?_⟩
  · obtain ⟨queue, hqueue, hkeeps⟩ := h₁.queue i
    rw [(hperm i (List.mem_finRange i)).1] at hkeeps
    obtain ⟨⟨chain, hbuilt, -⟩, -, -⟩ := hkeeps.stands
    exact ⟨queue, hqueue, hbuilt.linked.first_eq, h₁.destroyed i⟩
  · rw [TaskSchedule.destroyTaskSchedule, TaskSchedule.lockSchedule, hpending]
    dsimp only
    rw [if_neg (by decide), if_neg (by decide), if_neg (by decide), if_neg (by decide), hunschedule]
    exact hdestroy
  · obtain ⟨hnone, hfreed⟩ := hdone i (List.mem_finRange i)
    exact ⟨hnone, hfreed.trans (hperm i (List.mem_finRange i)).2⟩

end TaskSchedule

end XprcServer
