import XprcServer.Lib.System
import XprcServer.Tasks.Schedule

/-!
# Who frees a task

A task that was accepted belongs to the schedule, which is to free it some time after it was
unscheduled.  `TaskHistory` follows the calls on a schedule.

* `TaskHistory.Accounts` : a task that was accepted is in a queue, or was unscheduled as often as it
  is not;
* `TaskHistory.Owes` : one that was unscheduled is still in its item, unless the schedule was
  cleaned since;
* `destroyTaskSchedule_frees_iff` : destroying the schedule frees all tasks once exactly if the
  schedule was never cleaned after a task was unscheduled.  Cleaning drops the task without a
  destructor.
-/

namespace XprcServer

open Lib

/-- A call on the schedule, with the outcomes of its allocations -/
inductive ScheduleOp (τ : Type) where
  | schedule (alloc : Bool) (task : Option τ) (phase : ℤ)
  | unschedule (task : Option τ) (phase : ℤ)
  | clean (alloc : Fin taskScheduleNumTaskQueues → ℕ → Bool)

/-- A schedule with its history -/
structure TaskHistory (τ : Type) where
  schedule : TaskSchedule τ
  accepted : List τ
  unscheduled : List τ
  /-- the tasks that had been unscheduled when the schedule was last cleaned -/
  cleaned : List τ

variable {τ : Type} [DecidableEq τ]

def TaskSchedule.perform (s : TaskSchedule τ) : ScheduleOp τ → Access (ErrorCode × TaskSchedule τ)
  | .schedule alloc task phase => s.scheduleTask alloc task phase
  | .unschedule task phase => s.unscheduleTask task phase
  | .clean alloc => s.cleanSchedule alloc

namespace TaskHistory

def start (τ : Type) : TaskHistory τ := ⟨TaskSchedule.create τ, [], [], []⟩

/-- What a successful call adds to the history -/
def record (s : TaskHistory τ) (schedule : TaskSchedule τ) : ScheduleOp τ → TaskHistory τ
  | .schedule _ task _ => { s with schedule, accepted := s.accepted ++ task.toList }
  | .unschedule task _ => { s with schedule, unscheduled := s.unscheduled ++ task.toList }
  | .clean _ => { s with schedule, cleaned := s.unscheduled }

def perform (s : TaskHistory τ) (op : ScheduleOp τ) : Access (ErrorCode × TaskHistory τ) := do
  let (err, schedule) ← s.schedule.perform op
  return (err, if err = .none then s.record schedule op else { s with schedule })

/-- The histories of a schedule -/
def system (τ : Type) [DecidableEq τ] : System (TaskHistory τ) (ScheduleOp τ) :=
  System.ofExec (start τ) fun s op => (s.perform op).map Prod.snd

/-- There is memory, and each task is scheduled once. -/
def Fits (s : TaskHistory τ) : ScheduleOp τ → Prop
  | .schedule alloc task _ => alloc = true ∧ ∀ t, task = some t → t ∉ s.accepted
  | .unschedule _ _ => True
  | .clean alloc => ∀ i b, alloc i b = true

end TaskHistory

/-! ### Counting tasks -/

/-- All that is in one of the queues -/
def overQueues {β : Type} (f : Fin taskScheduleNumTaskQueues → List β) : List β :=
  (List.finRange taskScheduleNumTaskQueues).flatMap f

/-- The share of one queue -/
theorem overQueues_update {β : Type} (f : Fin taskScheduleNumTaskQueues → List β)
    (i : Fin taskScheduleNumTaskQueues) :
    ∃ rest, (overQueues f).Perm (f i ++ rest) ∧
      ∀ items, (overQueues (Function.update f i items)).Perm (items ++ rest) := by
  have hperm := List.perm_cons_erase (List.mem_finRange i)
  refine ⟨((List.finRange taskScheduleNumTaskQueues).erase i).flatMap f, hperm.flatMap_right f,
    fun items => (hperm.flatMap_right _).trans ?_⟩
  rw [List.flatMap_cons, Function.update_self]
  have hrest : ((List.finRange taskScheduleNumTaskQueues).erase i).flatMap
      (Function.update f i items) =
      ((List.finRange taskScheduleNumTaskQueues).erase i).flatMap f := by
    refine List.flatMap_congr fun j hj => Function.update_of_ne ?_ _ _
    exact ((List.nodup_finRange _).mem_erase_iff.1 hj).1
  rw [hrest]

/-- How often a task is in the queues -/
def queuedCount (seq : Fin taskScheduleNumTaskQueues → List (ItemAddress × Option τ)) (t : τ) : ℕ :=
  (overQueues fun i => (seq i).map Prod.snd).count (some t)

/-- How often a task is left in an item that was deleted -/
def leftCount
    (left : Fin taskScheduleNumTaskQueues → List (ItemAddress × Option TaskDestructor × τ))
    (t : τ) :
    ℕ :=
  (overQueues fun i => (left i).map fun e => some e.2.2).count (some t)

section

variable {left : Fin taskScheduleNumTaskQueues → List (ItemAddress × Option TaskDestructor × τ)}
  {i : Fin taskScheduleNumTaskQueues}

theorem map_update {α β : Type} (g : α → β) (f : Fin taskScheduleNumTaskQueues → List α)
    (items : List α) :
    (fun j => (Function.update f i items j).map g) = Function.update (fun j => (f j).map g) i
      (items.map g) := by
  funext j
  by_cases hj : j = i
  · rw [hj, Function.update_self, Function.update_self]
  · rw [Function.update_of_ne hj, Function.update_of_ne hj]

/-- The number of times a task is queued changes as it does in the queue that changes. -/
theorem queuedCount_update (seq : Fin taskScheduleNumTaskQueues → List (ItemAddress × Option τ))
    (i : Fin taskScheduleNumTaskQueues) (items : List (ItemAddress × Option τ)) (t : τ) :
    queuedCount (Function.update seq i items) t + ((seq i).map Prod.snd).count (some t) =
      queuedCount seq t + (items.map Prod.snd).count (some t) := by
  obtain ⟨rest, hbefore, hafter⟩ := overQueues_update (fun j => (seq j).map Prod.snd) i
  have h₁ := hbefore.count_eq (some t)
  have h₂ := (hafter (items.map Prod.snd)).count_eq (some t)
  rw [List.count_append] at h₁ h₂
  rw [queuedCount, map_update, h₂, queuedCount, h₁]
  omega

theorem leftCount_cons (a : ItemAddress) (t t' : τ) :
    leftCount (Function.update left i ((a, none, t) :: left i)) t' =
      leftCount left t' + if t = t' then 1 else 0 := by
  obtain ⟨rest, hbefore, hafter⟩ := overQueues_update (fun j => (left j).map fun e => some e.2.2) i
  have h₁ := hbefore.count_eq (some t')
  have h₂ := (hafter (((a, none, t) :: left i).map fun e => some e.2.2)).count_eq (some t')
  rw [List.count_append] at h₁ h₂
  rw [leftCount, map_update, h₂, leftCount, h₁, List.map_cons, List.count_cons]
  simp only [beq_iff_eq, Option.some.injEq]
  omega

end

namespace TaskHistory

/-- A task that was accepted is in a queue, or was unscheduled. -/
structure Accounts (s : TaskHistory τ)
    (seq : Fin taskScheduleNumTaskQueues → List (ItemAddress × Option τ))
    (left : Fin taskScheduleNumTaskQueues → List (ItemAddress × Option TaskDestructor × τ)) :
    Prop where
  holds : s.schedule.Holds seq left
  pending : s.schedule.destructionPending = false
  accepted : ∀ t, s.accepted.count t = queuedCount seq t + s.unscheduled.count t

variable {s : TaskHistory τ} {seq : Fin taskScheduleNumTaskQueues → List (ItemAddress × Option τ)}
  {left : Fin taskScheduleNumTaskQueues → List (ItemAddress × Option TaskDestructor × τ)}

theorem accounts_start : (start τ).Accounts (fun _ => []) fun _ => [] :=
  ⟨TaskSchedule.holds_create, rfl, fun _ => rfl⟩

/-- A call that fails changes nothing. -/
theorem perform_refused {op : ScheduleOp τ} {err : ErrorCode} (herr : err ≠ .none)
    (hrun : s.schedule.perform op = some (err, s.schedule)) : s.perform op = some (err, s) := by
  rw [perform, hrun, Option.bind_eq_bind, Option.bind_some]
  dsimp only
  rw [if_neg herr]
  rfl

theorem perform_done {op : ScheduleOp τ} {schedule : TaskSchedule τ}
    (hrun : s.schedule.perform op = some (.none, schedule)) :
    s.perform op = some (.none, s.record schedule op) := by
  rw [perform, hrun]
  rfl

theorem Accounts.schedule (h : s.Accounts seq left) (alloc : Bool) (task : Option τ) (phase : ℤ) :
    (∃ err, err ≠ .none ∧ s.perform (.schedule alloc task phase) = some (err, s)) ∨
      ∃ i t item schedule, phaseQueue phase = some i ∧ task = some t ∧
        s.perform (.schedule alloc task phase) =
          some (.none, s.record schedule (.schedule alloc task phase)) ∧
        (s.record schedule (.schedule alloc task phase)).Accounts
          (Function.update seq i (seq i ++ [(item, some t)])) left ∧
        s.schedule.OnlyQueue schedule i ∧
        ∀ a, (schedule.memory i).next a = if ((seq i).map Prod.fst).getLast? = some a then some item
          else (s.schedule.memory i).next a := by
  rcases h.holds.scheduleTask alloc task phase with ⟨err, herr, hrun⟩ |
    ⟨i, t, item, schedule, hphase, rfl, hrun, hholds, honly, hnext⟩
  · exact .inl ⟨err, herr, perform_refused herr hrun⟩
  · refine .inr ⟨i, t, item, schedule, hphase, rfl, perform_done hrun,
      ⟨hholds, honly.1.trans h.pending, fun t' => ?_⟩, honly, hnext⟩
    have hcount := queuedCount_update seq i (seq i ++ [(item, some t)]) t'
    have haccepted := h.accepted t'
    simp only [record, Option.toList_some, List.count_append, List.map_append,
      List.map_cons, List.map_nil, List.count_cons, List.count_nil, beq_iff_eq,
      Option.some.injEq] at hcount ⊢
    omega

theorem Accounts.unschedule (h : s.Accounts seq left) (task : Option τ) (phase : ℤ) :
    (∃ err, err ≠ .none ∧ s.perform (.unschedule task phase) = some (err, s) ∧
        ∀ i t, phaseQueue phase = some i → task = some t → some t ∉ (seq i).map Prod.snd) ∨
      ∃ i t before a behind schedule, phaseQueue phase = some i ∧ task = some t ∧
        seq i = before ++ (a, some t) :: behind ∧ some t ∉ before.map Prod.snd ∧
        s.perform (.unschedule task phase) =
          some (.none, s.record schedule (.unschedule task phase)) ∧
        (s.record schedule (.unschedule task phase)).Accounts
          (Function.update seq i (before ++ behind))
          (Function.update left i ((a, none, t) :: left i)) ∧
        s.schedule.OnlyQueue schedule i ∧
        ∀ c, (schedule.memory i).next c = if (before.map Prod.fst).getLast? = some c then
          (behind.map Prod.fst).head? else (s.schedule.memory i).next c := by
  rcases h.holds.unscheduleTask task phase with ⟨err, herr, hrun, hnone⟩ |
    ⟨i, t, before, a, behind, schedule, hphase, rfl, hseq, hbefore, hrun, hholds, honly, hnext⟩
  · exact .inl ⟨err, herr, perform_refused herr hrun, hnone⟩
  · refine .inr ⟨i, t, before, a, behind, schedule, hphase, rfl, hseq, hbefore, perform_done hrun,
      ⟨hholds, honly.1.trans h.pending, fun t' => ?_⟩, honly, hnext⟩
    have hcount := queuedCount_update seq i (before ++ behind) t'
    have haccepted := h.accepted t'
    rw [hseq] at hcount
    simp only [record, Option.toList_some, List.count_append, List.map_append, List.map_cons,
      List.count_cons, List.count_nil, beq_iff_eq, Option.some.injEq] at hcount ⊢
    omega

/-- The tasks in use are the same after cleaning, and nothing is left. -/
theorem Accounts.clean (h : s.Accounts seq left)
    (alloc : Fin taskScheduleNumTaskQueues → ℕ → Bool) :
    ∃ err schedule seq' left', s.perform (.clean alloc) = some (err,
        if err = .none then s.record schedule (.clean alloc) else { s with schedule }) ∧
      (if err = .none then s.record schedule (.clean alloc) else { s with schedule }).Accounts
        seq' left' ∧
      (err = .none → ∀ i, left' i = []) ∧ ((∀ i b, alloc i b = true) → err = .none) := by
  obtain ⟨err, schedule, seq', left', hrun, hholds, hseq, hpending, hleft, hall⟩ :=
    h.holds.cleanSchedule h.pending alloc
  have hrun' : s.schedule.perform (.clean alloc) = some (err, schedule) := hrun
  have hcount : ∀ t, queuedCount seq' t = queuedCount seq t := fun t => by
    rw [queuedCount, queuedCount, funext hseq]
  refine ⟨err, schedule, seq', left', by rw [perform, hrun']; rfl, ?_, hleft, hall⟩
  split_ifs
  · exact ⟨hholds, hpending, fun t => by rw [hcount]; exact h.accepted t⟩
  · exact ⟨hholds, hpending, fun t => by rw [hcount]; exact h.accepted t⟩

/-- **What was accepted stays accounted for**, whatever is called. -/
theorem accounts_reachable (h : (system τ).Reachable s) : ∃ seq left, s.Accounts seq left := by
  refine h.invariant (I := fun s => ∃ seq left, s.Accounts seq left) ?_ ?_
  · rintro s rfl
    exact ⟨_, _, accounts_start⟩
  · rintro s op s' - ⟨seq, left, h⟩ hperform
    obtain ⟨⟨err, s''⟩, hrun, rfl⟩ := Option.map_eq_some_iff.1 hperform
    cases op with
    | schedule alloc task phase =>
      rcases h.schedule alloc task phase with ⟨err', -, hrun'⟩ |
        ⟨i, t, item, schedule, -, -, hrun', h', -⟩
      · cases hrun.symm.trans hrun'
        exact ⟨_, _, h⟩
      · cases hrun.symm.trans hrun'
        exact ⟨_, _, h'⟩
    | unschedule task phase =>
      rcases h.unschedule task phase with ⟨err', -, hrun', -⟩ |
        ⟨i, t, before, a, behind, schedule, -, -, -, -, hrun', h', -⟩
      · cases hrun.symm.trans hrun'
        exact ⟨_, _, h⟩
      · cases hrun.symm.trans hrun'
        exact ⟨_, _, h'⟩
    | clean alloc =>
      obtain ⟨err', schedule, seq', left', hrun', h', -⟩ := h.clean alloc
      cases hrun.symm.trans hrun'
      exact ⟨_, _, h'⟩

/-! ### Freeing tasks -/

/-- A task that was unscheduled was dropped when the schedule was cleaned, or is still to be
freed. -/
structure Owes (s : TaskHistory τ)
    (seq : Fin taskScheduleNumTaskQueues → List (ItemAddress × Option τ))
    (left : Fin taskScheduleNumTaskQueues → List (ItemAddress × Option TaskDestructor × τ)) : Prop
    extends s.Accounts seq left where
  distinct : s.accepted.Nodup
  owed : ∀ t, s.unscheduled.count t = s.cleaned.count t + leftCount left t

theorem owes_start : (start τ).Owes (fun _ => []) fun _ => [] :=
  ⟨accounts_start, List.nodup_nil, fun _ => rfl⟩

/-- **Every call keeps what the schedule owes.** -/
theorem Owes.perform (h : s.Owes seq left) {op : ScheduleOp τ} (hfits : s.Fits op) :
    ∃ err s' seq' left', s.perform op = some (err, s') ∧ s'.Owes seq' left' := by
  cases op with
  | schedule alloc task phase =>
    rcases h.schedule alloc task phase with ⟨err, -, hrun⟩ |
      ⟨i, t, item, schedule, -, rfl, hrun, h', -⟩
    · exact ⟨err, s, seq, left, hrun, h⟩
    · refine ⟨_, _, _, _, hrun, h', ?_, h.owed⟩
      refine List.nodup_append.2 ⟨h.distinct, by simp, fun a ha b hb => ?_⟩
      rintro rfl
      exact hfits.2 t rfl (List.mem_singleton.1 hb ▸ ha)
  | unschedule task phase =>
    rcases h.unschedule task phase with ⟨err, -, hrun, -⟩ |
      ⟨i, t, before, a, behind, schedule, -, rfl, -, -, hrun, h', -⟩
    · exact ⟨err, s, seq, left, hrun, h⟩
    · refine ⟨_, _, _, _, hrun, h', h.distinct, fun t' => ?_⟩
      have howed := h.owed t'
      rw [leftCount_cons]
      simp only [record, Option.toList_some, List.count_append, List.count_cons, List.count_nil,
        beq_iff_eq]
      omega
  | clean alloc =>
    obtain ⟨err, schedule, seq', left', hrun, h', hleft, hall⟩ := h.clean alloc
    obtain rfl := hall hfits
    rw [if_pos rfl] at hrun h'
    refine ⟨_, _, _, _, hrun, h', h.distinct, fun t => ?_⟩
    have hnil : leftCount left' t = 0 := by
      rw [leftCount, funext fun i => congrArg (List.map _) (hleft rfl i)]
      rfl
    rw [hnil]
    rfl

theorem owes_reachable (h : ((system τ).restrict Fits).Reachable s) : ∃ seq left,
    s.Owes seq left := by
  refine h.invariant (I := fun s => ∃ seq left, s.Owes seq left) ?_ ?_
  · rintro s rfl
    exact ⟨_, _, owes_start⟩
  · rintro s op s' - ⟨seq, left, h⟩ ⟨hfits, hperform⟩
    obtain ⟨⟨err, s''⟩, hrun, rfl⟩ := Option.map_eq_some_iff.1 hperform
    obtain ⟨err', s₁, seq', left', hrun', h'⟩ := h.perform hfits
    cases hrun.symm.trans hrun'
    exact ⟨seq', left', h'⟩

/-- Before the schedule is destroyed nothing is freed. -/
theorem Accounts.freed_eq (h : s.Accounts seq left) : s.schedule.freed = [] := by
  refine List.flatMap_eq_nil_iff.2 fun i _ => ?_
  rw [h.holds.destroyed i]
  rfl

/-- How often tasks are freed when the schedule is destroyed. -/
theorem Owes.count_freed (h : s.Owes seq left) {s' : TaskSchedule τ}
    (hfreed : ∀ i, ((s'.memory i).destroyed.map Prod.snd).Perm
      ((seq i).map Prod.snd ++ (left i).map fun e => some e.2.2)) (t : τ) :
    s'.freed.count (some t) + s.cleaned.count t = s.accepted.count t := by
  have hperm : s'.freed.Perm (overQueues fun i => (seq i).map Prod.snd ++
      (left i).map fun e => some e.2.2) :=
    List.Perm.flatMap_left _ fun i _ => hfreed i
  have hsplit : (overQueues fun i => (seq i).map Prod.snd ++ (left i).map fun e => some e.2.2).Perm
      ((overQueues fun i => (seq i).map Prod.snd) ++ overQueues fun i => (left i).map fun e =>
        some e.2.2) :=
    (List.flatMap_append_perm _ _ _).symm
  have hcount := (hperm.trans hsplit).count_eq (some t)
  rw [List.count_append] at hcount
  have haccepted := h.accepted t
  have howed := h.owed t
  rw [queuedCount] at haccepted
  rw [leftCount] at howed
  omega

end TaskHistory

/-- **Tasks are freed once exactly if the schedule is not cleaned after a task was unscheduled.**
In any sequence of calls with enough memory in which each task is scheduled once, nothing is freed
before the schedule is destroyed.  That succeeds, unschedules what is still scheduled before
anything is freed, and then every task that was accepted has been freed once if and only if no task
had been unscheduled whenever the schedule was cleaned. -/
theorem destroyTaskSchedule_frees_iff {s : TaskHistory τ}
    (h : ((TaskHistory.system τ).restrict TaskHistory.Fits).Reachable s) :
    s.schedule.freed = [] ∧
      ∃ s₁ s', TaskSchedule.unscheduleQueues (List.finRange taskScheduleNumTaskQueues) .none
          { s.schedule with destructionPending := true } = some (.none, s₁) ∧
        (∀ i, ∃ queue, s₁.queues i = some queue ∧ queue.firstInUseItem = none ∧
          (s₁.memory i).destroyed = []) ∧
        TaskSchedule.destroyQueues (List.finRange taskScheduleNumTaskQueues) .none s₁ =
          some (.none, s') ∧
        s.schedule.destroyTaskSchedule true true = some (.none, s') ∧
        ((∀ t ∈ s.accepted, s'.freed.count (some t) = 1) ↔ s.cleaned = []) := by
  obtain ⟨seq, left, howes⟩ := TaskHistory.owes_reachable h
  obtain ⟨s₁, s', hunschedule, hempty, hqueues, hdestroy, hfreed⟩ :=
    howes.holds.destroyTaskSchedule howes.pending
  refine ⟨howes.freed_eq, s₁, s', hunschedule, hempty, hqueues, hdestroy, ?_⟩
  have hcount := howes.count_freed fun i => (hfreed i).2
  have hone : ∀ t ∈ s.accepted, s.accepted.count t = 1 := fun t ht =>
    List.count_eq_one_of_mem howes.distinct ht
  constructor
  · intro hall
    refine List.eq_nil_iff_forall_not_mem.2 fun t ht => ?_
    -- a task that was dropped had been accepted
    have hpos := List.count_pos_iff.2 ht
    have haccepted : t ∈ s.accepted := by
      have howed := howes.owed t
      have hcounts := howes.accepted t
      exact List.count_pos_iff.1 (by omega)
    have h₁ := hcount t
    rw [hall t haccepted, hone t haccepted] at h₁
    omega
  · intro hnone t ht
    have h₁ := hcount t
    rw [hnone, hone t ht] at h₁
    exact h₁

/-- One task is unscheduled before the end, another one stays scheduled. -/
theorem destroyTaskSchedule_frees_iff_unscheduled :
    ∃ (s : TaskHistory ℕ) (s' : TaskSchedule ℕ), 7 ∈ s.unscheduled ∧ s.schedule.freed = [] ∧
      s.schedule.destroyTaskSchedule true true = some (.none, s') ∧
      s'.freed.count (some 7) = 1 ∧ s'.freed.count (some 8) = 1 := by
  have hstart : ((TaskHistory.system ℕ).restrict TaskHistory.Fits).Reachable
      (TaskHistory.start ℕ) :=
    .start rfl
  have h₁ := hstart.allowed (.schedule true (some 7) 0) ⟨rfl, fun _ _ => List.not_mem_nil⟩
    (Option.some_get (show Option.isSome _ = true by decide +kernel)).symm
  have h₂ := h₁.allowed (.schedule true (some 8) 0) ⟨rfl, by decide +kernel⟩
    (Option.some_get (show Option.isSome _ = true by decide +kernel)).symm
  have h₃ := h₂.allowed (.unschedule (some 7) 0) trivial
    (Option.some_get (show Option.isSome _ = true by decide +kernel)).symm
  obtain ⟨s, h, hseven, height, hunscheduled, hcleaned⟩ : ∃ s : TaskHistory ℕ,
      ((TaskHistory.system ℕ).restrict TaskHistory.Fits).Reachable s ∧ 7 ∈ s.accepted ∧
      8 ∈ s.accepted ∧ 7 ∈ s.unscheduled ∧ s.cleaned = [] :=
    ⟨_, h₃, by decide +kernel, by decide +kernel, by decide +kernel, by decide +kernel⟩
  obtain ⟨hunfreed, s₁, s', -, -, -, hdestroy, hfreed⟩ := destroyTaskSchedule_frees_iff h
  exact ⟨s, s', hunscheduled, hunfreed, hdestroy, hfreed.2 hcleaned 7 hseven,
    hfreed.2 hcleaned 8 height⟩

/-- A task is unscheduled before the schedule is cleaned, and is never freed. -/
theorem cleaned_task_not_freed :
    ∃ (s : TaskHistory ℕ) (s' : TaskSchedule ℕ),
      ((TaskHistory.system ℕ).restrict TaskHistory.Fits).Reachable s ∧ 7 ∈ s.accepted ∧
      7 ∈ s.unscheduled ∧
      s.schedule.destroyTaskSchedule true true = some (.none, s') ∧
      s'.freed.count (some 7) = 0 := by
  have hstart : ((TaskHistory.system ℕ).restrict TaskHistory.Fits).Reachable
      (TaskHistory.start ℕ) :=
    .start rfl
  have h₁ := hstart.allowed (.schedule true (some 7) 0) ⟨rfl, fun _ _ => List.not_mem_nil⟩
    (Option.some_get (show Option.isSome _ = true by decide +kernel)).symm
  have h₂ := h₁.allowed (.unschedule (some 7) 0) trivial
    (Option.some_get (show Option.isSome _ = true by decide +kernel)).symm
  have h₃ := h₂.allowed (.clean fun _ _ => true) (fun _ _ => rfl)
    (Option.some_get (show Option.isSome _ = true by decide +kernel)).symm
  obtain ⟨s, h, haccepted, hunscheduled, hresult⟩ : ∃ s : TaskHistory ℕ,
      ((TaskHistory.system ℕ).restrict TaskHistory.Fits).Reachable s ∧ 7 ∈ s.accepted ∧
      7 ∈ s.unscheduled ∧
      (s.schedule.destroyTaskSchedule true true).map (fun r => (r.1, r.2.freed)) =
        some (.none, []) :=
    ⟨_, h₃, by decide +kernel, by decide +kernel, by decide +kernel⟩
  obtain ⟨⟨err, s'⟩, hdestroy, heq⟩ := Option.map_eq_some_iff.1 hresult
  obtain ⟨rfl, hfreed⟩ := Prod.mk.inj heq
  refine ⟨s, s', h, haccepted, hunscheduled, hdestroy, ?_⟩
  rw [hfreed]
  rfl

end XprcServer
