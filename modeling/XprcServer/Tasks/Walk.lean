import XprcServer.Tasks.Callbacks

/-!
# Running tasks

`run_tasks` follows the links between the items of a queue and calls the tasks back.  What callbacks
do is a `TaskBehaviour`: the calls they make, which may depend on the schedule and on how often
tasks were invoked.

* `TaskWalk.round_spec` : one round of the walk;
* `TaskWalk.runItems_spec` : the walk meets the items that are ahead in their order, then new ones,
  and not more of these than were accepted;
* `runTasks_invokes` : `run_tasks` for any phase.
-/

namespace XprcServer

open Lib

variable {τ : Type} [DecidableEq τ]

/-- The calls made by the callback of a task in a queue, given the number of invocations before
it -/
abbrev TaskBehaviour (τ : Type) :=
  ℕ → τ → Fin taskScheduleNumTaskQueues → TaskSchedule τ → List (ScheduleOp τ)

/-- The schedule in the course of `run_tasks`, and the tasks invoked so far with the phase they were
told -/
structure TaskWalk (τ : Type) where
  history : TaskHistory τ
  invoked : List (τ × ℤ)

namespace TaskWalk

variable (onProcessing : τ → Bool) (behaviour : TaskBehaviour τ)

/-- A task is processed; without a callback nothing happens.  While the queue is run in a flight
loop phase, NULL must not be among its tasks. -/
def process (mayBeNull : Bool) (i : Fin taskScheduleNumTaskQueues) (phase : ℤ) (task : Option τ)
    (r : TaskWalk τ) : Access (TaskWalk τ) :=
  match task with
  | none => if mayBeNull then some r else none
  | some task =>
    if onProcessing task then do
      let history ← TaskHistory.performCalls (behaviour r.invoked.length task i r.history.schedule)
          r.history
      return ⟨history, r.invoked ++ [(task, phase)]⟩
    else some r

/-- So many rounds of a loop over the items of a queue, and the item that is next -/
def runItems (mayBeNull : Bool) (i : Fin taskScheduleNumTaskQueues) (phase : ℤ) :
    ℕ → Option ItemAddress → TaskWalk τ → Access (Option ItemAddress × TaskWalk τ)
  | 0, item, r => some (item, r)
  | _ + 1, none, r => some (none, r)
  | rounds + 1, some item, r => do
    let cell ← (r.history.schedule.memory i).item item
    let r ← r.process onProcessing behaviour mayBeNull i phase cell.value
    -- the link is read after the callback
    let cell ← (r.history.schedule.memory i).item item
    runItems mayBeNull i phase rounds cell.nextInUse r

/-- The loop over a queue, and whether it has ended -/
def runQueue (mayBeNull : Bool) (i : Fin taskScheduleNumTaskQueues) (phase : ℤ) (rounds : ℕ)
    (r : TaskWalk τ) : Access (Bool × TaskWalk τ) :=
  match r.history.schedule.queues i with
  | none => some (true, r)
  | some queue => do
    let (item, r) ← runItems onProcessing behaviour mayBeNull i phase rounds queue.firstInUseItem r
    return (item.isNone, r)

/-- The outer loop of `run_tasks_post_processing` -/
def runQueues (rounds : ℕ) : List (Fin taskScheduleNumTaskQueues) → TaskWalk τ → Access
    (Bool × TaskWalk τ)
  | [], r => some (true, r)
  | i :: rest, r => do
    let (ended, r) ← runQueue onProcessing behaviour true i taskSchedulePostProcessing rounds r
    if ended then runQueues rounds rest r else return (false, r)

end TaskWalk

/-- `run_tasks`, with at most so many rounds of each loop, and whether it has returned.  `locked`
tells whether the mutex could be locked. -/
def TaskHistory.runTasks (onProcessing : τ → Bool) (behaviour : TaskBehaviour τ) (rounds : ℕ)
    (locked : Bool) (phase : ℤ) (s : TaskHistory τ) : Access (Bool × TaskWalk τ) :=
  if phase = taskSchedulePostProcessing then
    if s.schedule.lockSchedule locked ≠ .none then some (true, ⟨s, []⟩)
    else TaskWalk.runQueues onProcessing behaviour rounds (List.finRange taskScheduleNumTaskQueues)
      ⟨s, []⟩
  else
    match phaseQueue phase with
    | none => some (true, ⟨s, []⟩)
    | some i =>
      if s.schedule.lockSchedule locked ≠ .none then some (true, ⟨s, []⟩)
      else TaskWalk.runQueue onProcessing behaviour false i phase rounds ⟨s, []⟩

/-! ### The walk -/

namespace TaskWalk

variable {onProcessing : τ → Bool} {behaviour : TaskBehaviour τ} {mayBeNull : Bool}
  {i : Fin taskScheduleNumTaskQueues} {phase : ℤ} {r : TaskWalk τ} {n : ℕ} {p : Option ItemAddress}
  {P : ℕ → TaskHistory τ → Prop}
  {seq : Fin taskScheduleNumTaskQueues → List (ItemAddress × Option τ)}
  {left : Fin taskScheduleNumTaskQueues → List (ItemAddress × Option TaskDestructor × τ)}
  {old fresh : List (ItemAddress × Option τ)}

/-- The callbacks unschedule at most their own task, given what `P` says about the history after so
many invocations, and they keep that. -/
def OwnBehaviour (P : ℕ → TaskHistory τ → Prop) (behaviour : TaskBehaviour τ) : Prop :=
  ∀ n task i s, P n s → task ∈ s.schedule.queued i →
    TaskSchedule.OwnCalls task i true (behaviour n task i s.schedule) s.schedule ∧
      ∀ s', TaskHistory.performCalls (behaviour n task i s.schedule) s = some s' → P (n + 1) s'

variable (onProcessing mayBeNull phase) in
/-- **One round**: the task of an item is invoked, and the walk goes on with what is ahead of it. -/
theorem round_spec (hown : OwnBehaviour P behaviour) (hP : P r.invoked.length r.history)
    (h : r.history.Accounts seq left) {before : List (ItemAddress × Option τ)}
    {a : ItemAddress} {t : τ} (hseq : seq i = before ++ (a, some t) :: (old ++ fresh)) :
    ∃ r' p' seq' left' more,
      (∀ rounds, runItems onProcessing behaviour mayBeNull i phase (rounds + 1) (some a) r =
        runItems onProcessing behaviour mayBeNull i phase rounds p' r') ∧
      P r'.invoked.length r'.history ∧ r'.history.Accounts seq' left' ∧
      Ahead old (fresh ++ more) (seq' i) p' ∧ Added r.history r'.history more ∧
      Grows i r.history seq r'.history seq' ∧
      r'.invoked = r.invoked ++ ([t].filter onProcessing).map (fun t => (t, phase)) ∧
      ((TaskHistory.system τ).Reachable r.history →
        (TaskHistory.system τ).Reachable r'.history) := by
  obtain ⟨queue, -, hkeeps⟩ := h.holds.queue i
  obtain ⟨⟨chain, hbuilt, -⟩, -, -⟩ := hkeeps.stands
  have hmem : (a, some t) ∈ seq i := by rw [hseq]; simp
  obtain ⟨-, cell, hcell, -, hvalue⟩ := hbuilt.live _ hmem
  have haround : Around a t old fresh (seq i) (left i) (r.history.schedule.memory i).next true :=
    .queued before true hseq
  cases hprocessing : onProcessing t with
  | false =>
    obtain ⟨cell', hcell', hahead⟩ := haround.next h
    refine ⟨r, cell'.nextInUse, seq, left, [], fun rounds => ?_, hP, h, ?_, added_refl,
      grows_refl, ?_, id⟩
    · rw [runItems, hcell, Option.bind_eq_bind, Option.bind_some, hvalue, process, hprocessing,
        if_neg Bool.false_ne_true, Option.bind_eq_bind, Option.bind_some, hcell']
      rfl
    · rw [List.append_nil]
      exact hahead
    · rw [List.filter_cons_of_neg (by rw [hprocessing]; decide)]
      exact (List.append_nil _).symm
  | true =>
    have hqueued : t ∈ r.history.schedule.queued i :=
      h.holds.mem_queued.2 (List.mem_map_of_mem hmem)
    obtain ⟨hcallsOwn, hkeepsP⟩ := hown r.invoked.length t i r.history hP hqueued
    obtain ⟨s', seq', left', more, free', hcalls, h', haround', hmore, hgrows, hreachable⟩ :=
      haround.performCalls h hcallsOwn
    obtain ⟨cell', hcell', hahead⟩ := haround'.next h'
    refine ⟨⟨s', r.invoked ++ [(t, phase)]⟩, cell'.nextInUse, seq', left', more,
      fun rounds => ?_, ?_, h', hahead, hmore, hgrows, ?_, hreachable⟩
    · rw [runItems, hcell, Option.bind_eq_bind, Option.bind_some, hvalue, process,
        hprocessing, if_pos rfl, hcalls]
      simp only [Option.bind_eq_bind, pure, Option.bind_some, hcell']
    · rw [List.length_append]
      exact hkeepsP s' hcalls
    · rw [List.filter_cons_of_pos hprocessing]
      rfl

omit [DecidableEq τ] in
theorem ahead_some {seqᵢ : List (ItemAddress × Option τ)} {a : ItemAddress}
    (h : Ahead old fresh seqᵢ (some a)) :
    (∃ e old', old = e :: old' ∧ e.1 = a) ∨ old = [] ∧ ∃ e fresh', fresh = e :: fresh' ∧
      e.1 = a := by
  obtain ⟨-, hp | ⟨-, hp⟩⟩ := h
  swap
  · cases hp
  · cases old with
    | cons e old => exact .inl ⟨e, old, rfl, (Option.some.inj hp).symm⟩
    | nil =>
      cases fresh with
      | cons e fresh => exact .inr ⟨rfl, e, fresh, rfl, (Option.some.inj hp).symm⟩
      | nil => cases hp

omit [DecidableEq τ] in
theorem ahead_none {seqᵢ : List (ItemAddress × Option τ)} (h : Ahead old fresh seqᵢ none) :
    old = [] := by
  obtain ⟨-, hp | ⟨hold, -⟩⟩ := h
  · rw [eq_comm, List.head?_eq_none_iff, List.map_eq_nil_iff, List.append_eq_nil_iff] at hp
    exact hp.1
  · exact hold

/-- **The walk meets the items ahead in their order**, after them only new ones.  It is not at its
end before it has met those that are not new, and not for longer than there are any. -/
theorem runItems_spec (hown : OwnBehaviour P behaviour) (rounds : ℕ)
    (hP : P r.invoked.length r.history)
    (h : r.history.Accounts seq left) (hn : n ≤ r.history.accepted.length)
    (hahead : Ahead old fresh (seq i) p) (hfresh : New n r.history fresh) :
    ∃ p' r' seq' left' more,
      runItems onProcessing behaviour mayBeNull i phase rounds p r = some (p', r') ∧
      P r'.invoked.length r'.history ∧ r'.history.Accounts seq' left' ∧
      Added r.history r'.history [] ∧
      Grows i r.history seq r'.history seq' ∧
      r'.invoked = r.invoked ++
        (((old.take rounds).filterMap Prod.snd).filter onProcessing ++ more).map
        (fun t => (t, phase)) ∧
      more.Sublist (r'.history.accepted.drop n) ∧ (rounds ≤ old.length → more = []) ∧
      (p' = none → old.length ≤ rounds) ∧
      (p' ≠ none → rounds + r.history.accepted.length <
        (old ++ fresh).length + r'.history.accepted.length) ∧
      ((TaskHistory.system τ).Reachable r.history →
        (TaskHistory.system τ).Reachable r'.history) := by
  induction rounds generalizing n p r seq left old fresh with
  | zero =>
    refine ⟨p, r, seq, left, [], rfl, hP, h, added_refl, grows_refl, by simp, List.nil_sublist _,
      fun _ => rfl, fun hp => ?_, fun hp => ?_, id⟩
    · rw [hp] at hahead
      rw [ahead_none hahead]
      exact Nat.le_refl 0
    · obtain ⟨a, rfl⟩ := Option.ne_none_iff_exists'.1 hp
      rcases ahead_some hahead with ⟨e, old, rfl, -⟩ | ⟨rfl, e, fresh, rfl, -⟩
      · simp
      · simp
  | succ rounds ih =>
    cases p with
    | none =>
      obtain rfl := ahead_none hahead
      exact ⟨none, r, seq, left, [], rfl, hP, h, added_refl, grows_refl, by simp,
        List.nil_sublist _, fun _ => rfl, fun _ => Nat.zero_le _, fun hp => absurd rfl hp, id⟩
    | some a =>
      obtain ⟨before, hseq⟩ := hahead.1
      rcases ahead_some hahead with ⟨e, old, rfl, rfl⟩ | ⟨rfl, e, fresh, rfl, rfl⟩
      · have hmem : e ∈ seq i := by rw [hseq]; simp
        obtain ⟨t, ht⟩ := Option.ne_none_iff_exists'.1 (h.holds.tasks i e hmem)
        have hseq' : seq i = before ++ (e.1, some t) :: (old ++ fresh) := by rw [hseq, ← ht]; rfl
        obtain ⟨r₁, p₁, seq₁, left₁, more₁, hround, hP₁, h₁, hahead₁, hmore₁, hgrows₁,
          hinvoked₁, hreachable₁⟩ :=
          round_spec onProcessing mayBeNull phase hown hP h hseq'
        have hle := hmore₁.length_le
        obtain ⟨p', r', seq', left', more, hrun, hP', h', hadded, hgrows, hinvoked, hnew,
          hfew, hend, hmeasure, hreachable⟩ :=
            ih hP₁ h₁ (by omega) hahead₁ (hfresh.append hn hmore₁)
        refine ⟨p', r', seq', left', more, by rw [hround, hrun], hP', h', hmore₁.none.trans hadded,
          hgrows₁.trans hgrows, ?_, hnew, fun hle => hfew (Nat.le_of_succ_le_succ hle),
          fun hp => Nat.succ_le_succ (hend hp), fun hp => ?_, fun hs => hreachable (hreachable₁ hs)⟩
        · rw [hinvoked, hinvoked₁, List.take_succ_cons, List.filterMap_cons, ht]
          cases hprocessing : onProcessing t <;> simp [hprocessing]
        · have hlt := hmeasure hp
          simp only [List.length_append, List.length_cons] at hlt ⊢
          omega
      · obtain ⟨t, m, ht, hm, hnew₁, hcons⟩ := hfresh.uncons hn
        have hseq' : seq i = before ++ (e.1, some t) :: ([] ++ fresh) := by rw [hseq, ← ht]; rfl
        obtain ⟨r₁, p₁, seq₁, left₁, more₁, hround, hP₁, h₁, hahead₁, hmore₁, hgrows₁,
          hinvoked₁, hreachable₁⟩ :=
          round_spec onProcessing mayBeNull phase hown hP h hseq'
        have hle := hmore₁.length_le
        obtain ⟨p', r', seq', left', more, hrun, hP', h', hadded, hgrows, hinvoked,
          hnew, -, -, hmeasure, hreachable⟩ := ih hP₁ h₁ (by omega) hahead₁ (hnew₁.append hm hmore₁)
        refine ⟨p', r', seq', left', [t].filter onProcessing ++ more, by rw [hround, hrun], hP', h',
          hmore₁.none.trans hadded, hgrows₁.trans hgrows, ?_, ?_,
          fun hle => absurd hle (Nat.not_succ_le_zero rounds), fun _ => Nat.zero_le _, fun hp => ?_,
          fun hs => hreachable (hreachable₁ hs)⟩
        · rw [hinvoked, hinvoked₁]
          simp
        · refine (List.Sublist.append List.filter_sublist (List.Sublist.refl more)).trans ?_
          exact hcons r'.history more (hmore₁.none.trans hadded) hnew
        · have hlt := hmeasure hp
          simp only [List.length_append, List.length_cons] at hlt ⊢
          omega

variable (onProcessing mayBeNull phase r) in
/-- The walk over a queue to which entries were added since its old ones were looked at. -/
theorem runQueue_spec (hown : OwnBehaviour P behaviour) (rounds : ℕ)
    (hP : P r.invoked.length r.history)
    (h : r.history.Accounts seq left) (hn : n ≤ r.history.accepted.length)
    (hseq : seq i = old ++ fresh)
    (hfresh : New n r.history fresh) :
    ∃ ended r' seq' left' more,
      runQueue onProcessing behaviour mayBeNull i phase rounds r = some (ended, r') ∧
      P r'.invoked.length r'.history ∧ r'.history.Accounts seq' left' ∧
      Added r.history r'.history [] ∧
      Grows i r.history seq r'.history seq' ∧
      r'.invoked = r.invoked ++
        (((old.take rounds).filterMap Prod.snd).filter onProcessing ++ more).map
        (fun t => (t, phase)) ∧
      more.Sublist (r'.history.accepted.drop n) ∧ (rounds ≤ old.length → more = []) ∧
      (ended = true → old.length ≤ rounds) ∧
      (ended = false → rounds + r.history.accepted.length < (seq i).length +
        r'.history.accepted.length) ∧
      ((TaskHistory.system τ).Reachable r.history →
        (TaskHistory.system τ).Reachable r'.history) := by
  obtain ⟨queue, hqueue, hkeeps⟩ := h.holds.queue i
  obtain ⟨⟨chain, hbuilt, -⟩, -, -⟩ := hkeeps.stands
  have hahead : Ahead old fresh (seq i) queue.firstInUseItem :=
    ⟨⟨[], hseq⟩, .inl (by rw [← hseq]; exact hbuilt.linked.first_eq)⟩
  obtain ⟨p', r', seq', left', more, hrun, hP', h', hadded, hgrows, hinvoked, hnew,
    hfew, hend, hmeasure, hreachable⟩ := runItems_spec hown rounds hP h hn hahead hfresh
  refine ⟨p'.isNone, r', seq', left', more, ?_, hP', h', hadded, hgrows, hinvoked, hnew, hfew,
    fun hended => hend (Option.isNone_iff_eq_none.1 hended), fun hended => ?_, hreachable⟩
  · rw [runQueue, hqueue]
    dsimp only
    rw [hrun]
    rfl
  · rw [hseq]
    exact hmeasure fun hp => by rw [hp] at hended; cases hended

variable (onProcessing r) in
/-- **The walk over queues** meets what was in each of them in its order, and then new entries of
that queue. -/
theorem runQueues_spec (hown : OwnBehaviour P behaviour) (rounds : ℕ)
    {queues : List (Fin taskScheduleNumTaskQueues)} (hnodup : queues.Nodup)
    (hP : P r.invoked.length r.history) (h : r.history.Accounts seq left)
    (hn : n ≤ r.history.accepted.length)
    (old : Fin taskScheduleNumTaskQueues → List (ItemAddress × Option τ))
    (hseq : ∀ j ∈ queues, ∃ fresh, seq j = old j ++ fresh ∧ New n r.history fresh) :
    ∃ ended r', runQueues onProcessing behaviour rounds queues r = some (ended, r') ∧
      Added r.history r'.history [] ∧
      (∃ more : Fin taskScheduleNumTaskQueues → List τ,
        (∀ j, (more j).Sublist (r'.history.accepted.drop n)) ∧
        (ended = true → r'.invoked = r.invoked ++ queues.flatMap fun j =>
          (((old j).filterMap Prod.snd).filter onProcessing ++ more j).map
            fun t => (t, taskSchedulePostProcessing))) ∧
      (∀ x ∈ r'.invoked, x ∈ r.invoked ∨ (∃ j, x.1 ∈ (old j).filterMap Prod.snd) ∨
        x.1 ∈ r'.history.accepted.drop n) ∧
      (ended = false → ∃ j ∈ queues,
        rounds + r.history.accepted.length < (seq j).length + r'.history.accepted.length) ∧
      ((TaskHistory.system τ).Reachable r.history →
        (TaskHistory.system τ).Reachable r'.history) := by
  induction queues generalizing r seq left with
  | nil =>
    exact ⟨true, r, rfl, added_refl, ⟨fun _ => [], fun _ => List.nil_sublist _,
      fun _ => (List.append_nil _).symm⟩, fun _ hx => .inl hx, nofun, id⟩
  | cons i queues ih =>
    obtain ⟨hnot, hnodup⟩ := List.nodup_cons.1 hnodup
    obtain ⟨fresh, hseqᵢ, hfresh⟩ := hseq i List.mem_cons_self
    obtain ⟨ended₁, r₁, seq₁, left₁, more₁, hrun₁, hP₁, h₁, hadded₁, hgrows₁,
      hinvoked₁, hnew₁, -, hend₁, hmeasure₁, hreachable₁⟩ :=
        runQueue_spec onProcessing true taskSchedulePostProcessing r hown rounds hP h hn
        hseqᵢ hfresh
    have hmet : ∀ x ∈ r₁.invoked, x ∈ r.invoked ∨ (∃ j, x.1 ∈ (old j).filterMap Prod.snd) ∨
        x.1 ∈ r₁.history.accepted.drop n := by
      intro x hx
      rw [hinvoked₁, List.mem_append, List.mem_map] at hx
      rcases hx with hx | ⟨t, ht, rfl⟩
      · exact .inl hx
      · rcases List.mem_append.1 ht with ht | ht
        · refine .inr (.inl ⟨i, ?_⟩)
          exact (List.Sublist.filterMap _ (List.take_sublist _ _)).subset
            (List.mem_of_mem_filter ht)
        · exact .inr (.inr (hnew₁.subset ht))
    cases ended₁ with
    | false =>
      refine ⟨false, r₁, ?_, hadded₁, ⟨fun _ => [], fun _ => List.nil_sublist _, nofun⟩,
        hmet, fun _ => ⟨i, List.mem_cons_self, hmeasure₁ rfl⟩, hreachable₁⟩
      rw [runQueues, hrun₁]
      rfl
    | true =>
      have hle := hadded₁.length_le
      have hseq₁ : ∀ j ∈ queues, ∃ fresh, seq₁ j = old j ++ fresh ∧ New n r₁.history fresh := by
        intro j hj
        obtain ⟨fresh, hseqⱼ, hfresh⟩ := hseq j (List.mem_cons_of_mem i hj)
        obtain ⟨more, hmore, hadded⟩ := hgrows₁ j fun heq => hnot (heq ▸ hj)
        exact ⟨fresh ++ more, by rw [hmore, hseqⱼ, List.append_assoc], hfresh.append hn hadded⟩
      obtain ⟨ended, r', hrun, hadded, ⟨more, hnew, hinvoked⟩, hmet', hmeasure, hreachable⟩ :=
        ih r₁ hnodup hP₁ h₁ (by omega) hseq₁
      refine ⟨ended, r', ?_, hadded₁.trans hadded,
        ⟨Function.update more i more₁, fun j => ?_, fun hended => ?_⟩, fun x hx => ?_, fun hended =>
          ?_, fun hs => hreachable (hreachable₁ hs)⟩
      · rw [runQueues, hrun₁]
        exact hrun
      · by_cases hj : j = i
        · rw [hj, Function.update_self]
          exact hnew₁.trans (hadded.drop_sublist n)
        · rw [Function.update_of_ne hj]
          exact hnew j
      · have hrest : ∀ j ∈ queues, Function.update more i more₁ j = more j := by
          rintro j hj
          refine Function.update_of_ne ?_ _ _
          rintro rfl
          exact hnot hj
        rw [hinvoked hended, hinvoked₁, List.take_of_length_le (hend₁ rfl), List.flatMap_cons,
          Function.update_self, List.append_assoc]
        congr 2
        exact List.flatMap_congr fun j hj => by rw [hrest j hj]
      · rcases hmet' x hx with hx | hx | hx
        · exact (hmet x hx).imp_right (Or.imp_right fun hx => (hadded.drop_sublist n).subset hx)
        · exact .inr (.inl hx)
        · exact .inr (.inr hx)
      · obtain ⟨j, hj, hlt⟩ := hmeasure hended
        obtain ⟨more, hmore, haddedⱼ⟩ := hgrows₁ j fun heq => hnot (heq ▸ hj)
        have hleⱼ := haddedⱼ.length_le
        rw [hmore, List.length_append] at hlt
        exact ⟨j, List.mem_cons_of_mem i hj, by omega⟩

end TaskWalk

/-! ### Running the tasks -/

section

variable {onProcessing : τ → Bool} {behaviour : TaskBehaviour τ} {P : ℕ → TaskHistory τ → Prop}
  {s : TaskHistory τ} {seq : Fin taskScheduleNumTaskQueues → List (ItemAddress × Option τ)}
  {left : Fin taskScheduleNumTaskQueues → List (ItemAddress × Option TaskDestructor × τ)}
  {i : Fin taskScheduleNumTaskQueues} {rounds : ℕ} {phase : ℤ}

theorem map_some_tasks {α β : Type} {l : List (α × Option β)} (h : ∀ e ∈ l, e.2 ≠ none) :
    (l.filterMap Prod.snd).map some = l.map Prod.snd := by
  induction l with
  | nil => rfl
  | cons e l ih =>
    obtain ⟨t, ht⟩ := Option.ne_none_iff_exists'.1 (h e List.mem_cons_self)
    rw [List.filterMap_cons, ht, List.map_cons, List.map_cons, ht,
      ih fun e' he' => h e' (List.mem_cons_of_mem e he')]

theorem tasks_take {α β : Type} {l : List (α × Option β)} (h : ∀ e ∈ l, e.2 ≠ none) (k : ℕ) :
    (l.take k).filterMap Prod.snd = (l.filterMap Prod.snd).take k := by
  refine List.map_injective_iff.2 (fun _ _ heq => Option.some.inj heq) ?_
  rw [map_some_tasks fun e he => h e (List.mem_of_mem_take he), List.map_take, List.map_take,
    map_some_tasks h]

omit [DecidableEq τ] in
theorem TaskSchedule.Holds.length_queued {s : TaskSchedule τ} (h : s.Holds seq left) :
    (s.queued i).length = (seq i).length := by
  have hlength := congrArg List.length (map_some_tasks (h.tasks i))
  rw [List.length_map, List.length_map] at hlength
  rw [h.queued_eq, hlength]

theorem TaskHistory.Accounts.lockSchedule (h : s.Accounts seq left) :
    ¬ s.schedule.lockSchedule true ≠ .none := by
  rw [TaskSchedule.lockSchedule, h.pending]
  decide

theorem TaskHistory.Accounts.runTasks_post (h : s.Accounts seq left) :
    s.runTasks onProcessing behaviour rounds true taskSchedulePostProcessing =
      TaskWalk.runQueues onProcessing behaviour rounds (List.finRange taskScheduleNumTaskQueues)
        ⟨s, []⟩ := by
  rw [TaskHistory.runTasks, if_pos rfl, if_neg h.lockSchedule]

theorem TaskHistory.Accounts.runTasks_queue (h : s.Accounts seq left)
    (hphase : phaseQueue phase = some i) :
    s.runTasks onProcessing behaviour rounds true phase =
      TaskWalk.runQueue onProcessing behaviour false i phase rounds ⟨s, []⟩ := by
  have hpost : phase ≠ taskSchedulePostProcessing := by
    rintro rfl
    cases hphase
  rw [TaskHistory.runTasks, if_neg hpost, hphase]
  exact if_neg h.lockSchedule

variable (onProcessing behaviour) in
theorem TaskHistory.runTasks_none (s : TaskHistory τ) (hphase : phaseQueue phase = none)
    (hpost : phase ≠ taskSchedulePostProcessing) (rounds : ℕ) :
    s.runTasks onProcessing behaviour rounds true phase = some (true, ⟨s, []⟩) := by
  rw [TaskHistory.runTasks, if_neg hpost, hphase]

/-- A task that is invoked was queued, or is new. -/
theorem TaskHistory.Accounts.invoked_count (h : s.Accounts seq left) {s' : TaskHistory τ} {t : τ}
    (hinvoked : (∃ j, t ∈ (seq j).filterMap Prod.snd) ∨ t ∈ s'.accepted.drop s.accepted.length) :
    s.unscheduled.count t < s.accepted.count t ∨ t ∈ s'.accepted.drop s.accepted.length := by
  refine hinvoked.imp_left ?_
  rintro ⟨j, hj⟩
  rw [← h.holds.queued_eq] at hj
  exact h.queued_count hj

omit [DecidableEq τ] in
theorem length_le_overQueues (i : Fin taskScheduleNumTaskQueues) : (seq i).length ≤
    (overQueues seq).length :=
  (List.sublist_flatten_of_mem (List.mem_map_of_mem (List.mem_finRange i))).length_le

/-- A run that does not end within the rounds has met more entries than there were at the start, so
that tasks were accepted in it. -/
theorem TaskHistory.Accounts.runTasks_measure (hown : TaskWalk.OwnBehaviour P behaviour)
    (h : s.Accounts seq left) (hP : P 0 s) (onProcessing : τ → Bool) (phase : ℤ) (rounds : ℕ) :
    ∃ ended r, s.runTasks onProcessing behaviour rounds true phase = some (ended, r) ∧
      (ended = false → rounds < (overQueues seq).length + r.history.accepted.length) := by
  have hnew : New s.accepted.length s ([] : List (ItemAddress × Option τ)) := List.nil_sublist _
  by_cases hpost : phase = taskSchedulePostProcessing
  · subst hpost
    obtain ⟨ended, r, hrun, -, -, -, hmeasure, -⟩ :=
      TaskWalk.runQueues_spec onProcessing ⟨s, []⟩ hown rounds
      (List.nodup_finRange _) hP h (Nat.le_refl _) seq fun j _ =>
        ⟨[], (List.append_nil _).symm, hnew⟩
    refine ⟨ended, r, h.runTasks_post.trans hrun, fun hended => ?_⟩
    obtain ⟨j, -, hlt⟩ := hmeasure hended
    have hlength : (seq j).length ≤ (overQueues seq).length := length_le_overQueues j
    omega
  · cases hphase : phaseQueue phase with
    | none => exact ⟨true, _, s.runTasks_none onProcessing behaviour hphase hpost rounds, nofun⟩
    | some i =>
      obtain ⟨ended, r, seq', left', more, hrun, -, -, -, -, -, -, -, -, hmeasure, -⟩ :=
        TaskWalk.runQueue_spec onProcessing false phase ⟨s, []⟩ hown rounds hP h (Nat.le_refl _)
          (List.append_nil (seq i)).symm hnew
      refine ⟨ended, r, (h.runTasks_queue hphase).trans hrun, fun hended => ?_⟩
      have hlt := hmeasure hended
      have hlength : (seq i).length ≤ (overQueues seq).length := length_le_overQueues i
      omega

/-- If there is a bound to the tasks that are accepted, then a run ends. -/
theorem TaskHistory.Accounts.runTasks_ends (hown : TaskWalk.OwnBehaviour P behaviour)
    (h : s.Accounts seq left) (hP : P 0 s) {bound : ℕ} (hbound : ∀ rounds ended r,
      s.runTasks onProcessing behaviour rounds true phase = some (ended, r) →
      r.history.accepted.length ≤ bound) :
    ∃ rounds r, s.runTasks onProcessing behaviour rounds true phase = some (true, r) := by
  -- more rounds than there can be entries
  obtain ⟨ended, r, hrun, hmeasure⟩ :=
    h.runTasks_measure hown hP onProcessing phase ((overQueues seq).length + bound)
  cases ended with
  | true => exact ⟨_, r, hrun⟩
  | false =>
    have hlt := hmeasure rfl
    have hle := hbound _ _ r hrun
    omega

end

/-- **Running the tasks of a phase.**  The callbacks unschedule at most their own task.  In a flight
loop phase the tasks queued at the start are invoked once each and in order, as far as there are
rounds of the loop, and then only tasks accepted during the run; in post-processing this is so for
the queues one after the other.  A task that had been unscheduled as often as it was accepted is not
invoked unless it is accepted again.  If there is a bound to the tasks that the callbacks schedule,
then the run ends. -/
theorem runTasks_invokes (onProcessing : τ → Bool) {behaviour : TaskBehaviour τ}
    {P : ℕ → TaskHistory τ → Prop} (hown : TaskWalk.OwnBehaviour P behaviour) {s : TaskHistory τ}
    (h : (TaskHistory.system τ).Reachable s) (hP : P 0 s) (phase : ℤ) :
    (∀ rounds, ∃ ended r, s.runTasks onProcessing behaviour rounds true phase = some (ended, r) ∧
      (TaskHistory.system τ).Reachable r.history ∧
      (∀ x ∈ r.invoked, s.unscheduled.count x.1 < s.accepted.count x.1 ∨
        x.1 ∈ r.history.accepted.drop s.accepted.length) ∧
      (∀ i, phaseQueue phase = some i → ∃ more : List τ,
        more.Sublist (r.history.accepted.drop s.accepted.length) ∧
        r.invoked = (((s.schedule.queued i).take rounds).filter onProcessing ++ more).map
          (fun t => (t, phase)) ∧
        (rounds ≤ (s.schedule.queued i).length → more = []) ∧
        (ended = true → (s.schedule.queued i).length ≤ rounds)) ∧
      (phase = taskSchedulePostProcessing → ended = true →
        ∃ more : Fin taskScheduleNumTaskQueues → List τ,
          (∀ i, (more i).Sublist (r.history.accepted.drop s.accepted.length)) ∧
          r.invoked = (List.finRange taskScheduleNumTaskQueues).flatMap fun i =>
            ((s.schedule.queued i).filter onProcessing ++ more i).map (fun t => (t, phase)))) ∧
    ((∃ bound, ∀ rounds ended r, s.runTasks onProcessing behaviour rounds true phase =
      some (ended, r) →
        r.history.accepted.length ≤ bound) →
      ∃ rounds r, s.runTasks onProcessing behaviour rounds true phase = some (true, r)) := by
  obtain ⟨seq, left, haccounts⟩ := TaskHistory.accounts_reachable h
  refine ⟨fun rounds => ?_, fun ⟨bound, hbound⟩ => haccounts.runTasks_ends hown hP hbound⟩
  have hnew : New s.accepted.length s ([] : List (ItemAddress × Option τ)) := List.nil_sublist _
  by_cases hpost : phase = taskSchedulePostProcessing
  · subst hpost
    obtain ⟨ended, r, hrun, -, ⟨more, hmore, hinvoked⟩, hmet, -, hreachable⟩ :=
      TaskWalk.runQueues_spec onProcessing ⟨s, []⟩ hown rounds (List.nodup_finRange _) hP haccounts
        (Nat.le_refl _) seq fun j _ => ⟨[], (List.append_nil _).symm, hnew⟩
    refine ⟨ended, r, haccounts.runTasks_post.trans hrun, hreachable h, fun x hx => ?_,
      (fun i hi => nomatch hi), fun _ hended => ⟨more, hmore, ?_⟩⟩
    · exact haccounts.invoked_count ((hmet x hx).resolve_left List.not_mem_nil)
    · rw [hinvoked hended, List.nil_append]
      exact List.flatMap_congr fun j _ => by rw [haccounts.holds.queued_eq]
  · cases hphase : phaseQueue phase with
    | none =>
      have hrun := s.runTasks_none onProcessing behaviour hphase hpost
      exact ⟨true, _, hrun rounds, h, (fun _ hx => nomatch hx), (fun _ hi => nomatch hi),
        fun heq => absurd heq hpost⟩
    | some i =>
      obtain ⟨ended, r, seq', left', more, hrun, -, -, -, -, hinvoked, hmore, hfew,
        hend, -, hreachable⟩ :=
        TaskWalk.runQueue_spec onProcessing false phase ⟨s, []⟩ hown rounds hP haccounts
          (Nat.le_refl _) (List.append_nil (seq i)).symm hnew
      rw [List.nil_append, tasks_take (haccounts.holds.tasks i), ← haccounts.holds.queued_eq]
        at hinvoked
      refine ⟨ended, r, (haccounts.runTasks_queue hphase).trans hrun, hreachable h, fun x hx => ?_,
        fun j hj => ?_, fun heq => absurd heq hpost⟩
      · refine haccounts.invoked_count ?_
        rw [hinvoked] at hx
        obtain ⟨t, ht, rfl⟩ := List.mem_map.1 hx
        rcases List.mem_append.1 ht with ht | ht
        · refine .inl ⟨i, ?_⟩
          rw [← haccounts.holds.queued_eq]
          exact List.mem_of_mem_take (List.mem_of_mem_filter ht)
        · exact .inr (hmore.subset ht)
      · obtain rfl := Option.some.inj hj
        rw [haccounts.holds.length_queued]
        exact ⟨more, hmore, hinvoked, hfew, hend⟩

/-- The first callback schedules the task 9.  Each one unschedules its own task, to be sure it does
so twice. -/
def scheduleNine : TaskBehaviour ℕ := fun n task _ _ =>
  (if n = 0 then [.schedule true (some 9) 0] else []) ++
    [.unschedule (some task) 0, .unschedule (some task) 0]

theorem scheduleNine_own : TaskWalk.OwnBehaviour (fun n s => (TaskHistory.system ℕ).Reachable s ∧
    s.accepted.Nodup ∧ (n = 0 → 9 ∉ s.accepted)) scheduleNine := by
  rintro n task i s ⟨h, hdistinct, hnine⟩ hqueued
  obtain ⟨seq, left, haccounts⟩ := TaskHistory.accounts_reachable h
  have haccepted : task ∈ s.accepted :=
    List.count_pos_iff.1 (Nat.zero_lt_of_lt (haccounts.queued_count hqueued))
  have hdistinct' :
      (s.accepted ++ (scheduleNine n task i s.schedule).flatMap ScheduleOp.scheduled).Nodup := by
    by_cases hn : n = 0
    · have hne : ∀ a ∈ s.accepted, a ≠ 9 := fun a ha heq => hnine hn (heq ▸ ha)
      simpa [scheduleNine, hn, ScheduleOp.scheduled, List.nodup_append] using ⟨hdistinct, hne⟩
    · simpa [scheduleNine, hn, ScheduleOp.scheduled] using hdistinct
  refine ⟨haccounts.ownCalls hdistinct' haccepted ?_ fun j hj =>
    ⟨haccounts.one_queue hdistinct hqueued hj, rfl⟩, fun s' hrun => ?_⟩
  · by_cases hn : n = 0 <;> simp [scheduleNine, hn, ScheduleOp.OwnOrNew]
  · obtain ⟨h', haccepted'⟩ := TaskHistory.performCalls_distinct hrun h hdistinct'
    exact ⟨h', haccepted', fun hn => absurd hn (Nat.succ_ne_zero n)⟩

/-- Two tasks that leave the queue while it is run. -/
theorem runTasks_invokes_both : ∃ (s : TaskHistory ℕ) (ended : Bool) (r : TaskWalk ℕ),
    s.runTasks (fun _ => true) scheduleNine 2 true 0 = some (ended, r) ∧
    r.invoked = [(7, 0), (8, 0)] := by
  have hstart : (TaskHistory.system ℕ).Reachable (TaskHistory.start ℕ) := .start rfl
  have h₁ := hstart.step (.schedule true (some 7) 0)
    (Option.some_get (show Option.isSome _ = true by decide +kernel)).symm
  have h₂ := h₁.step (.schedule true (some 8) 0)
    (Option.some_get (show Option.isSome _ = true by decide +kernel)).symm
  obtain ⟨s, h, hdistinct, hnine, hqueued⟩ : ∃ s : TaskHistory ℕ,
    (TaskHistory.system ℕ).Reachable s ∧
      s.accepted.Nodup ∧ 9 ∉ s.accepted ∧ s.schedule.queued ⟨0, by decide⟩ = [7, 8] :=
    ⟨_, h₂, by decide +kernel, by decide +kernel, by decide +kernel⟩
  obtain ⟨ended, r, hrun, -, -, hqueue, -⟩ :=
    (runTasks_invokes (fun _ => true) scheduleNine_own h ⟨h, hdistinct, fun _ => hnine⟩ 0).1 2
  obtain ⟨more, -, hinvoked, hfew, -⟩ := hqueue ⟨0, by decide⟩ rfl
  rw [hfew (by rw [hqueued]; exact Nat.le_refl 2), hqueued] at hinvoked
  exact ⟨s, ended, r, hrun, hinvoked⟩

end XprcServer
