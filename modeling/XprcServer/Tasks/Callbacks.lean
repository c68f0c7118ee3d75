import Mathlib.Data.List.Infix
import XprcServer.Tasks.Ownership

/-!
# Callbacks of tasks

While a queue is run, the callback of a task may unschedule that task, which takes the item out of
the links the walk is at, and may schedule tasks, which are linked behind the last item.

* `Around` : where the walk stands while a callback runs; `Around.perform` : a call keeps that;
* `Around.next` : the link that is read after the callback leads to what is ahead;
* `TaskHistory.Accounts.ownCalls` : what callbacks may do where each task is scheduled once.
-/

namespace XprcServer

open Lib

variable {τ : Type} [DecidableEq τ]

/-- Calls one after the other, whatever their results -/
def TaskHistory.performCalls : List (ScheduleOp τ) → TaskHistory τ → Access (TaskHistory τ)
  | [], s => some s
  | op :: ops, s => do
    let (_, s) ← s.perform op
    TaskHistory.performCalls ops s

/-! ### What callbacks may do -/

namespace TaskSchedule

/-- The tasks in a queue, in their order -/
def queued {τ : Type} (s : TaskSchedule τ) (i : Fin taskScheduleNumTaskQueues) : List τ :=
  match s.queues i with
  | none => []
  | some queue =>
    ((follow (s.memory i).next ((s.memory i).unused * preallocListBlockSize)
      queue.firstInUseItem).getD []).filterMap fun a => ((s.memory i).content a).value

/-- A callback schedules tasks, or unschedules the task it was called for, from the queue that is
run.  Once it has done so (`free` is false), or in the other queue, there must be nothing more of
the task to unschedule. -/
def OwnCall {τ : Type} (own : τ) (i : Fin taskScheduleNumTaskQueues) (free : Bool)
    (s : TaskSchedule τ) :
    ScheduleOp τ → Prop
  | .schedule _ _ _ => True
  | .unschedule task phase => task = some own ∧
    (phaseQueue phase = some i ∧ free = true ∨ ∀ j, phaseQueue phase = some j → own ∉ s.queued j)
  | .clean _ => False

/-- Whether the task may still be unscheduled after a call -/
def stillFree {τ : Type} (i : Fin taskScheduleNumTaskQueues) (free : Bool) : ScheduleOp τ → Bool
  | .unschedule _ phase => free && phaseQueue phase ≠ some i
  | _ => free

/-- All calls of a callback are of that kind. -/
def OwnCalls (own : τ) (i : Fin taskScheduleNumTaskQueues) :
    Bool → List (ScheduleOp τ) → TaskSchedule τ → Prop
  | _, [], _ => True
  | free, op :: ops, s => OwnCall own i free s op ∧
    ∀ err s', s.perform op = some (err, s') → OwnCalls own i (stillFree i free op) ops s'

end TaskSchedule

/-! ### Where the walk stands -/

section

variable {s : TaskHistory τ} {seq : Fin taskScheduleNumTaskQueues → List (ItemAddress × Option τ)}
  {left : Fin taskScheduleNumTaskQueues → List (ItemAddress × Option TaskDestructor × τ)}
  {i : Fin taskScheduleNumTaskQueues} {a : ItemAddress} {t : τ} {free : Bool} {n : ℕ}
  {old fresh more : List (ItemAddress × Option τ)}

omit [DecidableEq τ] in
/-- The tasks of a queue as they stand in it -/
theorem TaskSchedule.Holds.queued_eq {s : TaskSchedule τ} (h : s.Holds seq left)
    (i : Fin taskScheduleNumTaskQueues) : s.queued i = (seq i).filterMap Prod.snd := by
  obtain ⟨queue, hqueue, hkeeps⟩ := h.queue i
  obtain ⟨⟨chain, hbuilt, -⟩, hfresh, -⟩ := hkeeps.stands
  have hle := PreallocList.length_le_unused hbuilt hfresh
  rw [TaskSchedule.queued, hqueue]
  dsimp only
  rw [hbuilt.linked.forward.follow_eq (by rw [List.length_map]; exact hle), Option.getD_some,
    List.filterMap_map]
  refine List.filterMap_congr fun e he => ?_
  exact (hkeeps.stands.content he).2

omit [DecidableEq τ] in
theorem TaskSchedule.Holds.mem_queued {s : TaskSchedule τ} (h : s.Holds seq left)
    {i : Fin taskScheduleNumTaskQueues} {t : τ} : t ∈ s.queued i ↔
    some t ∈ (seq i).map Prod.snd := by
  rw [h.queued_eq, List.mem_filterMap, List.mem_map]

/-- From one state to another tasks were accepted, and some of these are the entries, in this
order. -/
def Added (s s' : TaskHistory τ) (more : List (ItemAddress × Option τ)) : Prop :=
  ∃ new, s'.accepted = s.accepted ++ new ∧ (more.map Prod.snd).Sublist (new.map some)

omit [DecidableEq τ] in
theorem added_refl : Added s s [] := ⟨[], (List.append_nil _).symm, List.Sublist.refl _⟩

omit [DecidableEq τ] in
theorem Added.trans {s' s'' : TaskHistory τ} {more' : List (ItemAddress × Option τ)}
    (h : Added s s' more) (h' : Added s' s'' more') : Added s s'' (more ++ more') := by
  obtain ⟨new, haccepted, hmore⟩ := h
  obtain ⟨new', haccepted', hmore'⟩ := h'
  refine ⟨new ++ new', by rw [haccepted', haccepted, List.append_assoc], ?_⟩
  rw [List.map_append, List.map_append]
  exact hmore.append hmore'

omit [DecidableEq τ] in
theorem Added.none {s' : TaskHistory τ} (h : Added s s' more) : Added s s' [] :=
  h.imp fun _ h => ⟨h.1, List.nil_sublist _⟩

omit [DecidableEq τ] in
theorem Added.length_le {s' : TaskHistory τ} (h : Added s s' more) :
    s.accepted.length + more.length ≤ s'.accepted.length := by
  obtain ⟨new, haccepted, hmore⟩ := h
  have hle := hmore.length_le
  rw [List.length_map, List.length_map] at hle
  rw [haccepted, List.length_append]
  omega

omit [DecidableEq τ] in
theorem Added.drop_sublist {s' : TaskHistory τ} (h : Added s s' more) (n : ℕ) :
    (s.accepted.drop n).Sublist (s'.accepted.drop n) := by
  obtain ⟨new, haccepted, -⟩ := h
  rw [haccepted]
  exact ((List.prefix_append _ _).drop n).sublist

/-- The entries are of tasks accepted after the first `n`, in this order. -/
def New (n : ℕ) (s : TaskHistory τ) (fresh : List (ItemAddress × Option τ)) : Prop :=
  (fresh.map Prod.snd).Sublist ((s.accepted.drop n).map some)

omit [DecidableEq τ] in
theorem New.append {s' : TaskHistory τ} (hn : n ≤ s.accepted.length) (h : New n s fresh)
    (h' : Added s s' more) : New n s' (fresh ++ more) := by
  obtain ⟨new, haccepted, hmore⟩ := h'
  rw [New, haccepted, List.drop_append_of_le_length hn, List.map_append, List.map_append]
  exact List.Sublist.append h hmore

omit [DecidableEq τ] in
/-- The first of the new entries is of a task that was accepted before those of the others, at any
later time. -/
theorem New.uncons {e : ItemAddress × Option τ} (hn : n ≤ s.accepted.length)
    (h : New n s (e :: fresh)) :
    ∃ t m, e.2 = some t ∧ m ≤ s.accepted.length ∧ New m s fresh ∧
      ∀ s' tasks, Added s s' [] → tasks.Sublist (s'.accepted.drop m) →
        (t :: tasks).Sublist (s'.accepted.drop n) := by
  obtain ⟨some₁, some₂, hdrop, hmem, hfresh⟩ := List.cons_sublist_iff.1 h
  obtain ⟨accepted₁, accepted₂, hsplit, rfl, rfl⟩ := List.map_eq_append_iff.1 hdrop
  obtain ⟨t, ht, heq⟩ := List.mem_map.1 hmem
  have hlength := congrArg List.length hsplit
  rw [List.length_drop, List.length_append] at hlength
  have hrest : s.accepted.drop (n + accepted₁.length) = accepted₂ := by
    rw [← List.drop_drop, hsplit, List.drop_left]
  refine ⟨t, n + accepted₁.length, heq.symm, by omega, by rw [New, hrest]; exact hfresh, ?_⟩
  rintro s' tasks ⟨new, haccepted, -⟩ htasks
  rw [haccepted, List.drop_append_of_le_length (by omega), hrest] at htasks
  rw [haccepted, List.drop_append_of_le_length hn, hsplit, List.append_assoc]
  exact List.cons_sublist_iff.2 ⟨accepted₁, accepted₂ ++ new, rfl, ht, htasks⟩

/-- While the callback of the task `t` in the item `a` runs: its item is in the queue, in front of
what is ahead, or it was unscheduled and its link leads there, unless nothing old is ahead. -/
inductive Around (a : ItemAddress) (t : τ) (old fresh : List (ItemAddress × Option τ))
    (seqᵢ : List (ItemAddress × Option τ)) (leftᵢ : List (ItemAddress × Option TaskDestructor × τ))
    (next : ItemAddress → Option ItemAddress) : Bool → Prop
  | queued (before : List (ItemAddress × Option τ)) (free : Bool)
    (hseq : seqᵢ = before ++ (a, some t) :: (old ++ fresh)) :
    Around a t old fresh seqᵢ leftᵢ next free
  | unscheduled (before : List (ItemAddress × Option τ)) (x : Option TaskDestructor × τ)
    (hleft : (a, x) ∈ leftᵢ) (hseq : seqᵢ = before ++ (old ++ fresh))
    (hnext : next a = ((old ++ fresh).map Prod.fst).head? ∨ old = [] ∧ next a = none) :
    Around a t old fresh seqᵢ leftᵢ next false

omit [DecidableEq τ] in
/-- Taking out the first entry of a task takes out the given one, or one before it. -/
theorem first_entry {before₁ behind₁ before₂ behind₂ : List (ItemAddress × Option τ)}
    {c a : ItemAddress} (h : before₁ ++ (c, some t) :: behind₁ = before₂ ++ (a, some t) :: behind₂)
    (hfirst : some t ∉ before₁.map Prod.snd) :
    (before₁ = before₂ ∧ c = a ∧ behind₁ = behind₂) ∨
      ∃ between, before₂ = before₁ ++ (c, some t) :: between ∧
        behind₁ = between ++ (a, some t) :: behind₂ := by
  rcases List.append_eq_append_iff.1 h with ⟨between, rfl, hrest⟩ | ⟨between, rfl, hrest⟩
  · cases between with
    | nil =>
      obtain ⟨heq, rfl⟩ := List.cons.inj hrest
      exact .inl ⟨(List.append_nil _).symm, (Prod.mk.inj heq).1, rfl⟩
    | cons e between =>
      obtain ⟨rfl, rfl⟩ := List.cons.inj hrest
      exact .inr ⟨between, rfl, rfl⟩
  · cases between with
    | nil =>
      obtain ⟨heq, rfl⟩ := List.cons.inj hrest
      exact .inl ⟨List.append_nil _, (Prod.mk.inj heq).1.symm, rfl⟩
    | cons e between =>
      obtain ⟨rfl, -⟩ := List.cons.inj hrest
      exact absurd
        (List.mem_map_of_mem (f := Prod.snd) (List.mem_append_right _ List.mem_cons_self)) hfirst

omit [DecidableEq τ] in
theorem TaskSchedule.Holds.left_not_mem {s : TaskSchedule τ} (h : s.Holds seq left)
    {i : Fin taskScheduleNumTaskQueues} {a : ItemAddress} {x : Option TaskDestructor × τ}
    (hx : (a, x) ∈ left i) : a ∉ (seq i).map Prod.fst := by
  obtain ⟨queue, -, hkeeps⟩ := h.queue i
  rintro hmem
  obtain ⟨e, he, rfl⟩ := List.mem_map.1 hmem
  have hleft := (hkeeps.left_iff e.1 x).2 hx
  rw [ItemContent.left, if_neg (by rw [(hkeeps.stands.content he).1]; decide)] at hleft
  cases hleft

/-- The entries of the queues other than the one that is run stay, and those that were added are
behind them. -/
def Grows (i : Fin taskScheduleNumTaskQueues) (s : TaskHistory τ)
    (seq : Fin taskScheduleNumTaskQueues → List (ItemAddress × Option τ)) (s' : TaskHistory τ)
    (seq' : Fin taskScheduleNumTaskQueues → List (ItemAddress × Option τ)) : Prop :=
  ∀ j, j ≠ i → ∃ more, seq' j = seq j ++ more ∧ Added s s' more

omit [DecidableEq τ] in
theorem grows_refl : Grows i s seq s seq := fun _ _ => ⟨[], (List.append_nil _).symm, added_refl⟩

omit [DecidableEq τ] in
theorem Grows.trans {s' s'' : TaskHistory τ}
    {seq' seq'' : Fin taskScheduleNumTaskQueues → List (ItemAddress × Option τ)}
    (h : Grows i s seq s' seq') (h' : Grows i s' seq' s'' seq'') : Grows i s seq s'' seq'' := by
  intro j hj
  obtain ⟨more, hseq, hmore⟩ := h j hj
  obtain ⟨more', hseq', hmore'⟩ := h' j hj
  exact ⟨more ++ more', by rw [hseq', hseq, List.append_assoc], hmore.trans hmore'⟩

omit [DecidableEq τ] in
/-- Where the walk stands does not depend on what the callback may still do. -/
theorem Around.and {seqᵢ : List (ItemAddress × Option τ)}
    {leftᵢ : List (ItemAddress × Option TaskDestructor × τ)}
    {next : ItemAddress → Option ItemAddress}
    (h : Around a t old fresh seqᵢ leftᵢ next free) (b : Bool) :
    Around a t old fresh seqᵢ leftᵢ next (free && b) := by
  cases h with
  | queued before free hseq => exact .queued before _ hseq
  | unscheduled before x hleft hseq hnext => exact .unscheduled before x hleft hseq hnext

omit [DecidableEq τ] in
/-- The walk stands where it did when a task is put behind all others. -/
theorem Around.append {seqᵢ : List (ItemAddress × Option τ)}
    {leftᵢ : List (ItemAddress × Option TaskDestructor × τ)}
    {next next' : ItemAddress → Option ItemAddress}
    (h : Around a t old fresh seqᵢ leftᵢ next free) {item : ItemAddress} (t' : τ)
    (hleft : ∀ x, (a, x) ∈ leftᵢ → a ∉ seqᵢ.map Prod.fst)
    (hnext : ∀ c, next' c = if (seqᵢ.map Prod.fst).getLast? = some c then some item else next c) :
    Around a t old (fresh ++ [(item, some t')]) (seqᵢ ++ [(item, some t')]) leftᵢ next' free := by
  cases h with
  | queued before free hseq => exact .queued before free (by rw [hseq]; simp)
  | unscheduled before x hx hseq hahead =>
    have hsame : next' a = next a := by
      rw [hnext, if_neg fun hlast => hleft x hx (List.mem_of_getLast? hlast)]
    refine .unscheduled before x hx (by rw [hseq]; simp) ?_
    rw [hsame]
    rcases hahead with hahead | hahead
    swap
    · exact .inr hahead
    · -- where nothing was ahead, the link does not lead to what is put there now
      cases hlist : old ++ fresh with
      | nil =>
        rw [hlist] at hahead
        exact .inr ⟨(List.append_eq_nil_iff.1 hlist).1, hahead⟩
      | cons e rest =>
        rw [hlist] at hahead
        rw [← List.append_assoc, hlist]
        exact .inl hahead

/-- **A call made by a callback** keeps where the walk stands: at most the item of the task itself
is taken out of what is ahead, and new ones are put behind. -/
theorem Around.perform {op : ScheduleOp τ} (h : s.Accounts seq left)
    (haround : Around a t old fresh (seq i) (left i) (s.schedule.memory i).next free)
    (hown : TaskSchedule.OwnCall t i free s.schedule op) :
    ∃ err s' seq' left' more, s.perform op = some (err, s') ∧ s'.Accounts seq' left' ∧
      Around a t old (fresh ++ more) (seq' i) (left' i) (s'.schedule.memory i).next
        (TaskSchedule.stillFree i free op) ∧
      Added s s' more ∧ Grows i s seq s' seq' := by
  cases op with
  | schedule alloc task phase =>
    rcases h.schedule alloc task phase with ⟨err, -, hrun⟩ |
      ⟨j, t', item, schedule, -, rfl, hrun, h', honly, hnext⟩
    · refine ⟨err, s, seq, left, [], hrun, h, ?_, added_refl, grows_refl⟩
      rw [List.append_nil]
      exact haround
    · have hnew : Added s (s.record schedule (.schedule alloc (some t') phase)) [(item, some t')] :=
        ⟨[t'], rfl, List.Sublist.refl _⟩
      have hnone : Added s (s.record schedule (.schedule alloc (some t') phase)) [] :=
        ⟨[t'], rfl, List.nil_sublist _⟩
      by_cases hj : j = i
      · subst hj
        refine ⟨_, _, _, _, [(item, some t')], hrun, h', ?_, hnew, fun k hk => ⟨[], ?_, hnone⟩⟩
        · rw [Function.update_self]
          exact haround.append t' (fun x hx => h.holds.left_not_mem hx) hnext
        · rw [Function.update_of_ne hk, List.append_nil]
      · refine ⟨_, _, _, _, [], hrun, h', ?_, hnone, fun k hk => ?_⟩
        · rw [List.append_nil, Function.update_of_ne (Ne.symm hj)]
          have hmemory := honly.2 i (Ne.symm hj)
          rw [TaskHistory.record, hmemory]
          exact haround
        · by_cases hkj : k = j
          · rw [hkj, Function.update_self]
            exact ⟨_, rfl, hnew⟩
          · rw [Function.update_of_ne hkj]
            exact ⟨[], (List.append_nil _).symm, hnone⟩
  | unschedule task phase =>
    obtain ⟨rfl, hcall⟩ := hown
    rcases h.unschedule (some t) phase with ⟨err, -, hrun, -⟩ |
      ⟨j, t', before, c, behind, schedule, hphase, ht', hseq, hfirst, hrun, h', honly, hnext⟩
    · refine ⟨err, s, seq, left, [], hrun, h, ?_, added_refl, grows_refl⟩
      rw [List.append_nil]
      exact haround.and _
    · cases ht'
      -- the task was found, so this is the queue that is run and the first time
      have hfound : t ∈ s.schedule.queued j := by
        rw [h.holds.mem_queued, hseq]
        simp
      obtain ⟨hi, rfl⟩ := hcall.resolve_right fun hnone => hnone j hphase hfound
      obtain rfl : j = i := Option.some.inj (hphase.symm.trans hi)
      have hnone : Added s (s.record schedule (.unschedule (some t) phase)) [] :=
        ⟨[], (List.append_nil _).symm, List.Sublist.refl _⟩
      refine ⟨_, _, _, _, [], hrun, h', ?_, hnone, fun k hk => ⟨[], ?_, hnone⟩⟩
      swap
      · rw [Function.update_of_ne hk, List.append_nil]
      have hspent : TaskSchedule.stillFree j true (.unschedule (some t) phase) = false := by
        simp [TaskSchedule.stillFree, hphase]
      rw [hspent, Function.update_self, Function.update_self, List.append_nil]
      obtain ⟨before₂, hseq₂⟩ : ∃ before, seq j = before ++ (a, some t) :: (old ++ fresh) := by
        cases haround with
        | queued before free hseq => exact ⟨before, hseq⟩
      rcases first_entry (hseq.symm.trans hseq₂) hfirst with ⟨rfl, rfl, rfl⟩ | ⟨between, rfl, rfl⟩
      · refine .unscheduled before (none, t) List.mem_cons_self rfl (.inl ?_)
        obtain ⟨queue, -, hkeeps⟩ := h.holds.queue j
        obtain ⟨⟨chain, hbuilt, -⟩, -, -⟩ := hkeeps.stands
        have hlinked := hbuilt.linked.forward
        rw [hseq, List.map_append, List.map_cons] at hlinked
        have hnot : (before.map Prod.fst).getLast? ≠ some c := by
          intro hlast
          have hnodup := (List.nodup_append.1 hlinked.nodup).2.2
          exact hnodup c (List.mem_of_getLast? hlast) c List.mem_cons_self rfl
        rw [TaskHistory.record, hnext, if_neg hnot]
        exact hlinked.next_eq
      · exact .queued (before ++ between) false (by simp)
  | clean alloc => exact hown.elim

theorem TaskHistory.schedule_perform {s s' : TaskHistory τ} {op : ScheduleOp τ} {err : ErrorCode}
    (h : s.perform op = some (err, s')) : s.schedule.perform op = some (err, s'.schedule) := by
  obtain ⟨⟨err', schedule⟩, hrun, hresult⟩ := Option.bind_eq_some_iff.1 h
  obtain ⟨rfl, rfl⟩ := Prod.mk.inj (Option.some.inj hresult)
  rw [hrun]
  split_ifs
  · cases op <;> rfl
  · rfl

theorem TaskHistory.reachable_perform {s s' : TaskHistory τ} {op : ScheduleOp τ} {err : ErrorCode}
    (h : (TaskHistory.system τ).Reachable s) (hrun : s.perform op = some (err, s')) :
    (TaskHistory.system τ).Reachable s' :=
  .step op h (Option.map_eq_some_iff.2 ⟨_, hrun, rfl⟩)

/-- **All calls of a callback** keep where the walk stands. -/
theorem Around.performCalls {ops : List (ScheduleOp τ)} (h : s.Accounts seq left)
    (haround : Around a t old fresh (seq i) (left i) (s.schedule.memory i).next free)
    (hown : TaskSchedule.OwnCalls t i free ops s.schedule) :
    ∃ s' seq' left' more free', TaskHistory.performCalls ops s = some s' ∧ s'.Accounts seq' left' ∧
      Around a t old (fresh ++ more) (seq' i) (left' i) (s'.schedule.memory i).next free' ∧
      Added s s' more ∧ Grows i s seq s' seq' ∧
      ((TaskHistory.system τ).Reachable s → (TaskHistory.system τ).Reachable s') := by
  induction ops generalizing s seq left fresh free with
  | nil =>
    refine ⟨s, seq, left, [], free, rfl, h, ?_, added_refl, grows_refl, id⟩
    rw [List.append_nil]
    exact haround
  | cons op ops ih =>
    obtain ⟨err, s₁, seq₁, left₁, more₁, hrun, h₁, haround₁, hmore₁, hgrows₁⟩ :=
      haround.perform h hown.1
    obtain ⟨s', seq', left', more, free', hrest, h', haround', hmore, hgrows, hreachable⟩ :=
      ih h₁ haround₁ (hown.2 err _ (TaskHistory.schedule_perform hrun))
    refine ⟨s', seq', left', more₁ ++ more, free', ?_, h', ?_, hmore₁.trans hmore,
      hgrows₁.trans hgrows, fun hs => hreachable (TaskHistory.reachable_perform hs hrun)⟩
    · rw [TaskHistory.performCalls, hrun]
      exact hrest
    · rw [← List.append_assoc]
      exact haround'

omit [DecidableEq τ] in
/-- The pointer of the walk leads to what is ahead, unless nothing old is. -/
def Ahead (old fresh seqᵢ : List (ItemAddress × Option τ)) (p : Option ItemAddress) : Prop :=
  (∃ before, seqᵢ = before ++ (old ++ fresh)) ∧
    (p = ((old ++ fresh).map Prod.fst).head? ∨ old = [] ∧ p = none)

/-- After the callback the item is still in memory, and its link leads to what is ahead. -/
theorem Around.next (h : s.Accounts seq left)
    (haround : Around a t old fresh (seq i) (left i) (s.schedule.memory i).next free) :
    ∃ cell, (s.schedule.memory i).item a = some cell ∧ Ahead old fresh (seq i) cell.nextInUse := by
  obtain ⟨queue, -, hkeeps⟩ := h.holds.queue i
  obtain ⟨⟨chain, hbuilt, -⟩, -, -⟩ := hkeeps.stands
  cases haround with
  | queued before free hseq =>
    have hmem : (a, some t) ∈ seq i := by rw [hseq]; simp
    obtain ⟨-, cell, hcell, -⟩ := hbuilt.live _ hmem
    have hlinked := hbuilt.linked.forward
    rw [hseq, List.map_append, List.map_cons] at hlinked
    refine ⟨cell, hcell, ⟨before ++ [(a, some t)], by rw [hseq]; simp⟩, .inl ?_⟩
    rw [← PreallocHeap.next_eq hcell]
    exact hlinked.next_eq
  | unscheduled before x hleft hseq hnext =>
    cases hcell : (s.schedule.memory i).item a with
    | none =>
      have hsome := (hkeeps.left_iff a x).2 hleft
      rw [PreallocHeap.content, hcell] at hsome
      cases hsome
    | some cell =>
      refine ⟨cell, rfl, ⟨before, hseq⟩, ?_⟩
      rwa [← PreallocHeap.next_eq hcell]

end

/-! ### Callbacks in a schedule where each task is scheduled once -/

section

variable {s s' : TaskHistory τ}
  {seq : Fin taskScheduleNumTaskQueues → List (ItemAddress × Option τ)}
  {left : Fin taskScheduleNumTaskQueues → List (ItemAddress × Option TaskDestructor × τ)}
  {i j : Fin taskScheduleNumTaskQueues} {t : τ} {free : Bool} {op : ScheduleOp τ}
  {ops : List (ScheduleOp τ)}

/-- The task that a call schedules -/
def ScheduleOp.scheduled {τ : Type} : ScheduleOp τ → List τ
  | .schedule _ task _ => task.toList
  | _ => []

/-- The call concerns the task itself, or schedules one. -/
def ScheduleOp.OwnOrNew {τ : Type} (own : τ) : ScheduleOp τ → Prop
  | .schedule _ _ _ => True
  | .unschedule task _ => task = some own
  | .clean _ => False

/-- A task in a queue was unscheduled less often than it was accepted. -/
theorem TaskHistory.Accounts.queued_count (h : s.Accounts seq left) (ht : t ∈ s.schedule.queued i) :
    s.unscheduled.count t < s.accepted.count t := by
  have hmem : some t ∈ overQueues fun i => (seq i).map Prod.snd :=
    List.mem_flatMap.2 ⟨i, List.mem_finRange i, h.holds.mem_queued.1 ht⟩
  have hpos := List.count_pos_iff.2 hmem
  rw [h.accepted t, queuedCount]
  omega

theorem TaskHistory.Accounts.not_queued (h : s.Accounts seq left) (hdistinct : s.accepted.Nodup)
    (ht : t ∈ s.unscheduled) : t ∉ s.schedule.queued i := by
  rintro hqueued
  have hlt := h.queued_count hqueued
  have hpos := List.count_pos_iff.2 ht
  have hle := List.nodup_iff_count_le_one.1 hdistinct t
  omega

theorem TaskHistory.Accounts.one_queue (h : s.Accounts seq left) (hdistinct : s.accepted.Nodup)
    (hi : t ∈ s.schedule.queued i) (hj : t ∈ s.schedule.queued j) : j = i := by
  by_contra hne
  have hcount := queuedCount_update seq i [] t
  have hmem : some t ∈ overQueues fun k => (Function.update seq i [] k).map Prod.snd := by
    refine List.mem_flatMap.2 ⟨j, List.mem_finRange j, ?_⟩
    rw [Function.update_of_ne hne]
    exact h.holds.mem_queued.1 hj
  have hpos := List.count_pos_iff.2 hmem
  have hposᵢ := List.count_pos_iff.2 (h.holds.mem_queued.1 hi)
  have hle := List.nodup_iff_count_le_one.1 hdistinct t
  rw [h.accepted t] at hle
  rw [queuedCount, List.map_nil, List.count_nil] at hcount
  omega

theorem TaskHistory.accepted_perform {err : ErrorCode} (hrun : s.perform op = some (err, s')) :
    s'.accepted = s.accepted ∨ s'.accepted = s.accepted ++ op.scheduled := by
  obtain ⟨⟨err', schedule⟩, -, hresult⟩ := Option.bind_eq_some_iff.1 hrun
  obtain ⟨rfl, rfl⟩ := Prod.mk.inj (Option.some.inj hresult)
  split_ifs
  · cases op with
    | schedule alloc task phase => exact .inr rfl
    | unschedule task phase => exact .inl rfl
    | clean alloc => exact .inl rfl
  · exact .inl rfl

theorem TaskHistory.perform_schedule_eq {err err' : ErrorCode} {schedule : TaskSchedule τ}
    (hschedule : s.schedule.perform op = some (err, schedule))
    (hrun : s.perform op = some (err', s')) :
    schedule = s'.schedule :=
  (Prod.mk.inj (Option.some.inj (hschedule.symm.trans (TaskHistory.schedule_perform hrun)))).2

theorem TaskHistory.distinct_perform {err : ErrorCode} (hrun : s.perform op = some (err, s'))
    (hdistinct : (s.accepted ++ (op :: ops).flatMap ScheduleOp.scheduled).Nodup) :
    (s'.accepted ++ ops.flatMap ScheduleOp.scheduled).Nodup := by
  rw [List.flatMap_cons, ← List.append_assoc] at hdistinct
  rcases TaskHistory.accepted_perform hrun with haccepted | haccepted
  · rw [haccepted]
    refine hdistinct.sublist (List.Sublist.append ?_ (List.Sublist.refl _))
    exact List.sublist_append_left _ _
  · rw [haccepted]
    exact hdistinct

theorem TaskHistory.performCalls_distinct (hrun : TaskHistory.performCalls ops s = some s')
    (h : (TaskHistory.system τ).Reachable s)
    (hdistinct : (s.accepted ++ ops.flatMap ScheduleOp.scheduled).Nodup) :
    (TaskHistory.system τ).Reachable s' ∧ s'.accepted.Nodup := by
  induction ops generalizing s with
  | nil =>
    obtain rfl := Option.some.inj hrun
    rw [List.flatMap_nil, List.append_nil] at hdistinct
    exact ⟨h, hdistinct⟩
  | cons op ops ih =>
    obtain ⟨⟨err, s₁⟩, hop, hrest⟩ := Option.bind_eq_some_iff.1 hrun
    exact ih hrest (TaskHistory.reachable_perform h hop)
      (TaskHistory.distinct_perform hop hdistinct)

/-- **Where each task is scheduled once a callback may unschedule its task in any way**, and
schedule new ones. -/
theorem TaskHistory.Accounts.ownCalls (h : s.Accounts seq left)
    (hdistinct : (s.accepted ++ ops.flatMap ScheduleOp.scheduled).Nodup) (ht : t ∈ s.accepted)
    (hown : ∀ op ∈ ops, op.OwnOrNew t)
    (hfree : ∀ j, t ∈ s.schedule.queued j → j = i ∧ free = true) :
    TaskSchedule.OwnCalls t i free ops s.schedule := by
  induction ops generalizing s seq left free with
  | nil => trivial
  | cons op ops ih =>
    have hown' := fun op hop => hown op (List.mem_cons_of_mem _ hop)
    have hcall := hown op List.mem_cons_self
    cases op with
    | schedule alloc task phase =>
      refine ⟨trivial, fun err schedule hschedule => ?_⟩
      rcases h.schedule alloc task phase with ⟨err', -, hrun⟩ |
        ⟨k, t', item, schedule', -, rfl, hrun, h', -⟩
      · obtain rfl := TaskHistory.perform_schedule_eq hschedule hrun
        exact ih h (TaskHistory.distinct_perform hrun hdistinct) ht hown' hfree
      · obtain rfl := TaskHistory.perform_schedule_eq hschedule hrun
        refine ih h' (TaskHistory.distinct_perform hrun hdistinct)
          (List.mem_append_left _ ht) hown' ?_
        -- the new task is another one
        have hne : t' ≠ t := by
          rintro rfl
          exact (List.nodup_append.1 hdistinct).2.2 t' ht t' (by simp [ScheduleOp.scheduled]) rfl
        intro j hj
        refine hfree j (h.holds.mem_queued.2 ?_)
        rw [h'.holds.mem_queued] at hj
        by_cases hjk : j = k
        · rw [hjk, Function.update_self, List.map_append, List.mem_append] at hj
          rw [hjk]
          exact hj.resolve_right (by simpa using hne.symm)
        · rwa [Function.update_of_ne hjk] at hj
    | unschedule task phase =>
      obtain rfl : task = some t := hcall
      refine ⟨⟨rfl, ?_⟩, fun err schedule hschedule => ?_⟩
      · by_cases hfound : ∃ j, phaseQueue phase = some j ∧ t ∈ s.schedule.queued j
        · obtain ⟨j, hj, hqueued⟩ := hfound
          obtain ⟨rfl, htrue⟩ := hfree j hqueued
          exact .inl ⟨hj, htrue⟩
        · exact .inr fun j hj hqueued => hfound ⟨j, hj, hqueued⟩
      rcases h.unschedule (some t) phase with ⟨err', -, hrun, hnone⟩ |
        ⟨k, t', before, c, behind, schedule', -, ht', -, -, hrun, h', -⟩
      · obtain rfl := TaskHistory.perform_schedule_eq hschedule hrun
        refine ih h (TaskHistory.distinct_perform hrun hdistinct) ht hown' fun j hj => ?_
        obtain ⟨rfl, rfl⟩ := hfree j hj
        have hphase : phaseQueue phase ≠ some j := fun hphase =>
          hnone j t hphase rfl (h.holds.mem_queued.1 hj)
        exact ⟨rfl, by simp [TaskSchedule.stillFree, hphase]⟩
      · cases ht'
        obtain rfl := TaskHistory.perform_schedule_eq hschedule hrun
        have hdistinct' := TaskHistory.distinct_perform hrun hdistinct
        refine ih h' hdistinct' ht hown' fun j hj => ?_
        have hmem : t ∈ (s.record schedule (.unschedule (some t) phase)).unscheduled :=
          List.mem_append_right _ (List.mem_singleton_self t)
        exact absurd hj (h'.not_queued (List.nodup_append.1 hdistinct').1 hmem)
    | clean alloc => exact hcall.elim

end

end XprcServer
