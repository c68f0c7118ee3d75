import XprcServer.Commands.HoldRuns
import XprcServer.Lib.System

/-!
# Threads that terminate a command

A CMTR or CMHD command is terminated by the thread that has locked the task schedule, for a request
or in post-processing, and by the one that destroys the session, which locks nothing.  Here both go
through `terminate` step by step: the channel is finished, the task is taken off the schedule, and
then the entries are visited from the last one to the first one.

* `hold_calls_balanced` : in every run in which no thread enters `terminate` while another one is in
  it, X-Plane is told to begin and to end in turn, and as often to end as to begin once the command
  has been terminated and the queue flushed;
* `hold_calls_unbalanced` : two threads that are in the loop at the same time both queue the release
  of an entry that is held once;
* `HoldStep.advances` : the steps of `HoldRuns`, which take a termination as a whole, are runs of
  these threads.
-/

namespace XprcServer

open Lib

namespace HoldEntry

/-- The entry at an address, as long as it has not been freed. -/
def entryAt (item : ℕ) (entries : List HoldEntry) : Option HoldEntry :=
  entries.find? fun entry => entry.address = item

/-- `tail` of the list -/
def tailItem (entries : List HoldEntry) : Option ℕ :=
  entries.getLast?.map HoldEntry.address

/-- `item->prev` -/
def prevItem (item : ℕ) (entries : List HoldEntry) : Option ℕ :=
  tailItem (entries.takeWhile fun entry => entry.address ≠ item)

/-- What stays of one entry is put in its place. -/
def markEntry (keep : HoldEntry → Option HoldEntry) (item : ℕ) (entries : List HoldEntry) :
    List HoldEntry :=
  entries.flatMap fun entry => if entry.address = item then (keep entry).toList else [entry]

variable {entry : HoldEntry} {before after : List HoldEntry}

theorem tailItem_append_singleton : tailItem (before ++ [entry]) = some entry.address := by
  rw [tailItem, List.getLast?_concat, Option.map_some]

/-- No address twice: none is that of the entry in the middle. -/
theorem ne_of_nodup (hnodup : ((before ++ entry :: after).map HoldEntry.address).Nodup) :
    (∀ e ∈ before, e.address ≠ entry.address) ∧ ∀ e ∈ after, e.address ≠ entry.address := by
  rw [List.map_append, List.map_cons, List.perm_middle.nodup_iff, List.nodup_cons,
    ← List.map_append] at hnodup
  refine ⟨fun e he heq => hnodup.1 ?_, fun e he heq => hnodup.1 ?_⟩
  · rw [← heq]
    exact List.mem_map_of_mem (List.mem_append_left _ he)
  · rw [← heq]
    exact List.mem_map_of_mem (List.mem_append_right _ he)

theorem entryAt_middle (hnodup : ((before ++ entry :: after).map HoldEntry.address).Nodup) :
    entryAt entry.address (before ++ entry :: after) = some entry := by
  obtain ⟨hbefore, -⟩ := ne_of_nodup hnodup
  rw [entryAt, List.find?_append, List.find?_eq_none.2 (by simpa using hbefore), Option.none_or,
    List.find?_cons_of_pos (by simp)]

theorem prevItem_middle (hnodup : ((before ++ entry :: after).map HoldEntry.address).Nodup) :
    prevItem entry.address (before ++ entry :: after) = tailItem before := by
  obtain ⟨hbefore, -⟩ := ne_of_nodup hnodup
  rw [prevItem, List.takeWhile_append_of_pos (by simpa using hbefore),
    List.takeWhile_cons_of_neg (by simp), List.append_nil]

theorem markEntry_of_ne (keep : HoldEntry → Option HoldEntry) {item : ℕ} {entries : List HoldEntry}
    (h : ∀ e ∈ entries, e.address ≠ item) : markEntry keep item entries = entries := by
  induction entries with
  | nil => rfl
  | cons e rest ih =>
    rw [markEntry, List.flatMap_cons, if_neg (h e List.mem_cons_self)]
    exact congrArg (e :: ·) (ih fun e' he' => h e' (List.mem_cons_of_mem _ he'))

theorem markEntry_middle (keep : HoldEntry → Option HoldEntry)
    (hnodup : ((before ++ entry :: after).map HoldEntry.address).Nodup) :
    markEntry keep entry.address (before ++ entry :: after) =
      before ++ ((keep entry).toList ++ after) := by
  obtain ⟨hbefore, hafter⟩ := ne_of_nodup hnodup
  have hfirst := markEntry_of_ne keep hbefore
  have hlast := markEntry_of_ne keep hafter
  rw [markEntry] at hfirst hlast ⊢
  rw [List.flatMap_append, List.flatMap_cons, if_pos rfl, hfirst, hlast]

end HoldEntry

namespace HoldCommand

/-- What stays in the list of an entry whose release has been queued -/
def keep : HoldCommand → HoldEntry → Option HoldEntry
  | cmtr _ => fun entry => some { entry with held := false }
  | cmhd _ => fun _ => none

def withEntries (entries : List HoldEntry) : HoldCommand → HoldCommand
  | cmtr command => cmtr { command with entries := entries }
  | cmhd command => cmhd { command with entries := entries }

/-- `entry->held = false`; CMHD deletes the item. -/
def mark (item : ℕ) (command : HoldCommand) : HoldCommand :=
  command.withEntries (HoldEntry.markEntry command.keep item command.entries)

def withTask (task : Option ℕ) : HoldCommand → HoldCommand
  | cmtr command => cmtr { command with task := task }
  | cmhd command => cmhd { command with task := task }

/-- `command->task = NULL` -/
def dropTask (command : HoldCommand) : HoldCommand :=
  command.withTask none

/-- `command->channel_id = BAD_CHANNEL_ID` -/
def poison : HoldCommand → HoldCommand
  | cmtr command => cmtr { command with channelId := badChannelId }
  | cmhd command => cmhd { command with channelId := badChannelId }

/-- Whether entries could not be released: CMTR counts failures, CMHD looks at what is left. -/
def unreleased (failedToRelease : ℕ) : HoldCommand → Bool
  | cmtr _ => 0 < failedToRelease
  | cmhd command => 0 < command.entries.length

/-- Whether post-processing terminates the command -/
def postTerminates : HoldCommand → Bool
  | cmtr command => command.failed || command.finishing
  | cmhd command => command.failed

end HoldCommand

/-- Where a thread is in `cmtr_terminate` or `cmhd_terminate`. -/
inductive TerminatePc where
  | outside
  /-- The channel has been finished. -/
  | finished
  /-- The command has a task, which is to be taken off the schedule. -/
  | unscheduling
  | unscheduled
  /-- In the loop, at an item -/
  | atItem (item : Option ℕ) (failedToRelease : ℕ)
  /-- The entry of the item is held. -/
  | queueing (item : ℕ) (prev : Option ℕ) (failedToRelease : ℕ)
  /-- Its release has been queued. -/
  | queued (item : ℕ) (prev : Option ℕ) (failedToRelease : ℕ)
  deriving DecidableEq, Repr

namespace HoldRun

/-- The next step of a thread in `terminate`, and where it is then; `lock` is the result of
`lock_schedule`.  There is none if the item has been freed. -/
def advance (lock : ErrorCode) (results : QueueResults) (s : HoldRun) :
    TerminatePc → Option (TerminatePc × HoldRun)
  | .outside =>
    some (.finished,
      { s with port := s.port.send .finish s.command.channelId currentTimeReference none })
  | .finished =>
    some (if s.command.task.isNone then .atItem (HoldEntry.tailItem s.command.entries) 0
      else .unscheduling, s)
  | .unscheduling =>
    let r := s.port.unscheduleTask lock s.command.task holdPhase
    some (if r.1 ≠ .none then .outside else .unscheduled, { s with port := r.2 })
  | .unscheduled =>
    some (.atItem (HoldEntry.tailItem s.command.entries) 0,
      { s with command := s.command.dropTask })
  | .atItem none failedToRelease =>
    some (.outside,
      if s.command.unreleased failedToRelease then s
      else
        { s with
          command := s.command.poison
          port := s.port.requestChannelDestruction s.command.channelId
          ended := true })
  | .atItem (some item) failedToRelease => do
    let entry ← HoldEntry.entryAt item s.command.entries
    let prev := HoldEntry.prevItem item s.command.entries
    return (if entry.held then .queueing item prev failedToRelease
      else .atItem prev failedToRelease, s)
  | .queueing item prev failedToRelease => do
    let entry ← HoldEntry.entryAt item s.command.entries
    let q := s.xp.queueCommandEnd results entry.xpRef (some item)
    return (if q.1 = .none then .queued item prev failedToRelease
      else .atItem prev (failedToRelease + 1), { s with xp := q.2 })
  | .queued item prev failedToRelease => do
    let _ ← HoldEntry.entryAt item s.command.entries
    return (.atItem prev failedToRelease, { s with command := s.command.mark item })

end HoldRun

/-- The thread that has locked the schedule, for a request or in post-processing, and the one that
destroys the session. -/
inductive TerminatingThread where
  | server
  | destroyer
  deriving DecidableEq, Repr

/-- The other one -/
def TerminatingThread.other : TerminatingThread → TerminatingThread
  | server => destroyer
  | destroyer => server

theorem TerminatingThread.other_ne (thread : TerminatingThread) : thread.other ≠ thread := by
  cases thread <;> decide

/-- A command, and the threads that terminate it. -/
structure HoldThreads where
  run : HoldRun
  pc : TerminatingThread → TerminatePc

/-- What can happen. -/
inductive HoldThreadAct where
  | flightloop (millis : ℤ) (findCommand : List UInt8 → Option ℕ) (confirm : ErrorCode)
  | post (lock : ErrorCode) (env : HoldEntry.ReleaseEnv)
  | advance (thread : TerminatingThread) (lock : ErrorCode) (results : QueueResults)
  | queue (ops : List XpqueueOp)
  | elapse (port : Port)

/-- The steps.  The schedule is locked while its tasks are run, and while `server` terminates the
command; the destroyer locks it only to take the task off the schedule. -/
inductive HoldThreadStep (t : ℕ) : HoldThreads → HoldThreadAct → HoldThreads → Prop
  | flightloop {s : HoldThreads} {millis : ℤ} {findCommand : List UInt8 → Option ℕ}
      {confirm : ErrorCode} (hserver : s.pc .server = .outside)
      (h : t ∈ s.run.port.queues holdPhase) :
      HoldThreadStep t s (.flightloop millis findCommand confirm)
        { s with run := s.run.processFlightloop millis findCommand confirm }
  | post {s : HoldThreads} {lock : ErrorCode} {env : HoldEntry.ReleaseEnv}
      (hserver : s.pc .server = .outside) (h : t ∈ s.run.port.queues holdPhase)
      (hpost : s.run.command.postTerminates = false) :
      HoldThreadStep t s (.post lock env) { s with run := s.run.processPost lock env }
  | advance {s : HoldThreads} {thread : TerminatingThread} {lock : ErrorCode}
      {results : QueueResults} {pc : TerminatePc} {run : HoldRun}
      (h : s.run.advance lock results (s.pc thread) = some (pc, run))
      (hlock : thread = .destroyer → s.pc thread = .unscheduling → lock = .none →
        s.pc .server = .outside) :
      HoldThreadStep t s (.advance thread lock results) ⟨run, Function.update s.pc thread pc⟩
  | queue {s : HoldThreads} {ops : List XpqueueOp} :
      HoldThreadStep t s (.queue ops) { s with run := { s.run with xp := s.run.xp.execAll ops } }
  | elapse {s : HoldThreads} {port : Port}
      (h : (port.queues holdPhase).count t = (s.run.port.queues holdPhase).count t) :
      HoldThreadStep t s (.elapse port) { s with run := { s.run with port := port } }

/-- The runs of a command with the task `t`. -/
def holdSystem (t : ℕ) : System HoldThreads HoldThreadAct where
  init s := s.run.Created t ∧ ∀ thread, s.pc thread = .outside
  next := HoldThreadStep t

/-- A thread enters `terminate` only while the other one is not in it. -/
def HoldThreads.EntersAlone (s : HoldThreads) : HoldThreadAct → Prop
  | .advance thread _ _ => s.pc thread = .outside → s.pc thread.other = .outside
  | _ => True

/-! ### A thread alone in `terminate` -/

namespace HoldEntry

/-- The items behind `item` have been visited: if none of them could not be released, none is
held. -/
def Visited (item : Option ℕ) (failedToRelease : ℕ) (entries : List HoldEntry) : Prop :=
  ∃ before after, entries = before ++ after ∧ item = tailItem before ∧
    (failedToRelease = 0 → ∀ entry ∈ after, entry.held = false)

theorem visited_tail (entries : List HoldEntry) : Visited (tailItem entries) 0 entries :=
  ⟨entries, [], (List.append_nil _).symm, rfl, fun _ _ himpossible => nomatch himpossible⟩

/-- At an item, the entry is there, with those before it and those visited. -/
theorem Visited.at_item {item failedToRelease : ℕ} {entries : List HoldEntry}
    (h : Visited (some item) failedToRelease entries) :
    ∃ before entry after, entries = before ++ entry :: after ∧ entry.address = item ∧
      (failedToRelease = 0 → ∀ e ∈ after, e.held = false) := by
  obtain ⟨before, after, rfl, hitem, hafter⟩ := h
  rcases List.eq_nil_or_concat' before with rfl | ⟨front, entry, rfl⟩
  · cases hitem
  · rw [tailItem_append_singleton] at hitem
    exact ⟨front, entry, after, List.append_assoc _ _ _, (Option.some.inj hitem).symm, hafter⟩

/-- At the end of the loop nothing is held if no release has failed. -/
theorem Visited.released {entries : List HoldEntry} (h : Visited none 0 entries) :
    heldAddresses entries = [] := by
  obtain ⟨before, after, rfl, hitem, hafter⟩ := h
  rcases List.eq_nil_or_concat' before with rfl | ⟨front, entry, rfl⟩
  · exact heldAddresses_of_held (hafter rfl)
  · rw [tailItem_append_singleton] at hitem
    cases hitem

end HoldEntry

namespace HoldRun

variable {t : ℕ} {s s' : HoldRun} {pc pc' : TerminatePc}

/-- The command with what the thread has begun: it has no task if that is off the schedule, and the
entry is marked if its release is queued. -/
def settled (s : HoldRun) : TerminatePc → HoldRun
  | .unscheduled => { s with command := s.command.dropTask }
  | .queued item _ _ => { s with command := s.command.mark item }
  | _ => s

/-- What the thread has reached. -/
def Reached (s : HoldRun) : TerminatePc → Prop
  | .atItem item failedToRelease =>
    s.command.task = none ∧ HoldEntry.Visited item failedToRelease s.command.entries
  | .queueing item prev failedToRelease =>
    s.command.task = none ∧ ∃ before entry after, s.command.entries = before ++ entry :: after ∧
      entry.address = item ∧ entry.held = true ∧ prev = HoldEntry.tailItem before ∧
      (failedToRelease = 0 → ∀ e ∈ after, e.held = false)
  | .queued _ prev failedToRelease =>
    s.command.task = none ∧ HoldEntry.Visited prev failedToRelease s.command.entries
  | _ => True

theorem Sound.nodup (h : s.Sound t) : (s.command.entries.map HoldEntry.address).Nodup :=
  h.tracks.nodup

theorem keeps_keep (command : HoldCommand) : HoldEntry.Keeps command.keep := by
  cases command with
  | cmtr command => exact Cmtr.keeps_released
  | cmhd command => exact Cmhd.keeps_none

theorem mark_entries (command : HoldCommand) (item : ℕ) :
    (command.mark item).entries = HoldEntry.markEntry command.keep item command.entries := by
  cases command <;> rfl

theorem dropTask_entries (command : HoldCommand) : command.dropTask.entries = command.entries := by
  cases command <;> rfl

theorem dropTask_task (command : HoldCommand) : command.dropTask.task = none := by
  cases command <;> rfl

theorem mark_task (command : HoldCommand) (item : ℕ) : (command.mark item).task = command.task := by
  cases command <;> rfl

/-- Only the messages differ. -/
theorem Sound.send (h : s.Sound t) (call : ChannelCall) (id : ChannelId) (timestamp : ℤ)
    (text : Option (List UInt8)) : { s with port := s.port.send call id timestamp text }.Sound t :=
  (HoldStep.elapse rfl : HoldStep t s (.elapse (s.port.send call id timestamp text)) _).sound h

theorem Sound.dropTask (h : s.Sound t) {port' : Port} (hport : port'.Schedules t holdPhase none) :
    { s with port := port', command := s.command.dropTask }.Sound t := by
  obtain ⟨command, port, xp, ended⟩ := s
  obtain ⟨hcommand, -, hended⟩ := h
  cases command with
  | cmtr command =>
    exact ⟨⟨hcommand.tracks.mono fun himpossible => absurd rfl himpossible,
      fun himpossible => absurd rfl himpossible⟩, hport, fun hend => ⟨rfl, (hended hend).2⟩⟩
  | cmhd command =>
    exact ⟨⟨hcommand.tracks.mono fun himpossible => absurd rfl himpossible, hcommand.held,
      hcommand.nonempty⟩, hport, fun hend => ⟨rfl, (hended hend).2⟩⟩

/-- The release of an entry is queued, and the entry is marked. -/
theorem Sound.release {before after : List HoldEntry} {entry : HoldEntry} {results : QueueResults}
    (h : s.Sound t) (htask : s.command.task = none)
    (hentries : s.command.entries = before ++ entry :: after) (hheld : entry.held = true)
    (hqueued : (s.xp.queueCommandEnd results entry.xpRef (some entry.address)).1 = .none) :
    { s with
      command := s.command.mark entry.address
      xp := (s.xp.queueCommandEnd results entry.xpRef (some entry.address)).2 }.Sound t := by
  have hnodup := h.nodup
  have htracks := h.tracks
  rw [hentries] at hnodup htracks
  have hrelease := htracks.release (keeps_keep s.command) (not_not.2 htask) hheld hqueued
  have hmarked : (s.command.mark entry.address).entries =
      before ++ ((s.command.keep entry).toList ++ after) := by
    rw [mark_entries, hentries, HoldEntry.markEntry_middle _ hnodup]
  have hnotended : s.ended = true → False := by
    intro hend
    have hnone := (h.ended hend).2
    rw [hentries, HoldEntry.heldAddresses_append, HoldEntry.heldAddresses_cons,
      if_pos hheld] at hnone
    exact absurd hnone (by simp)
  rw [← hmarked] at hrelease
  obtain ⟨command, port, xp, ended⟩ := s
  obtain ⟨hcommand, hschedules, -⟩ := h
  cases command with
  | cmtr command =>
    exact ⟨⟨hrelease, fun hsome => absurd htask hsome⟩, hschedules,
      fun hend => (hnotended hend).elim⟩
  | cmhd command =>
    refine ⟨⟨hrelease, fun e he => hcommand.held e ?_, fun hinit => ?_⟩, hschedules,
      fun hend => (hnotended hend).elim⟩
    · change e ∈ (HoldCommand.mark entry.address (.cmhd command)).entries at he
      change command.entries = _ at hentries
      change e ∈ command.entries
      rw [hmarked] at he
      rw [hentries]
      rcases List.mem_append.1 he with hfirst | hlast
      · exact List.mem_append_left _ hfirst
      · exact List.mem_append_right _ (List.mem_cons_of_mem _ hlast)
    · have hentry := hcommand.held entry (by
        change command.entries = _ at hentries
        change entry ∈ command.entries
        rw [hentries]
        exact List.mem_append_right _ List.mem_cons_self)
      rw [hheld] at hentry
      cases hentry.trans hinit

theorem Sound.finish (h : s.Sound t) (htask : s.command.task = none)
    (hheld : HoldEntry.heldAddresses s.command.entries = []) :
    { s with
      command := s.command.poison
      port := s.port.requestChannelDestruction s.command.channelId
      ended := true }.Sound t := by
  obtain ⟨command, port, xp, ended⟩ := s
  obtain ⟨hcommand, hschedules, -⟩ := h
  cases command with
  | cmtr command =>
    exact ⟨⟨hcommand.tracks, fun hsome => absurd htask hsome⟩, hschedules, fun _ => ⟨htask, hheld⟩⟩
  | cmhd command =>
    exact ⟨⟨hcommand.tracks, hcommand.held, hcommand.nonempty⟩, hschedules, fun _ => ⟨htask, hheld⟩⟩

/-- If everything could be released, nothing is held. -/
theorem released_of_unreleased {command : HoldCommand} {failedToRelease : ℕ}
    (h : HoldEntry.Visited none failedToRelease command.entries)
    (hdone : ¬ command.unreleased failedToRelease = true) :
    HoldEntry.heldAddresses command.entries = [] := by
  cases command with
  | cmtr command =>
    obtain rfl : failedToRelease = 0 := by simpa [HoldCommand.unreleased] using hdone
    exact h.released
  | cmhd command =>
    have hnil : command.entries = [] := by simpa [HoldCommand.unreleased] using hdone
    change HoldEntry.heldAddresses command.entries = []
    rw [hnil]
    rfl

section

variable {lock : ErrorCode} {results : QueueResults} {before after : List HoldEntry}
  {entry : HoldEntry}

theorem advance_at (hentries : s.command.entries = before ++ entry :: after)
    (hnodup : ((before ++ entry :: after).map HoldEntry.address).Nodup) (failedToRelease : ℕ) :
    s.advance lock results (.atItem (some entry.address) failedToRelease) =
      some (if entry.held then
          .queueing entry.address (HoldEntry.tailItem before) failedToRelease
        else .atItem (HoldEntry.tailItem before) failedToRelease, s) := by
  rw [advance, hentries, HoldEntry.entryAt_middle hnodup, HoldEntry.prevItem_middle hnodup]
  rfl

theorem advance_queue (hentries : s.command.entries = before ++ entry :: after)
    (hnodup : ((before ++ entry :: after).map HoldEntry.address).Nodup) (prev : Option ℕ)
    (failedToRelease : ℕ) :
    s.advance lock results (.queueing entry.address prev failedToRelease) =
      some (if (s.xp.queueCommandEnd results entry.xpRef (some entry.address)).1 = .none then
          .queued entry.address prev failedToRelease
        else .atItem prev (failedToRelease + 1),
        { s with xp := (s.xp.queueCommandEnd results entry.xpRef (some entry.address)).2 }) := by
  rw [advance, hentries, HoldEntry.entryAt_middle hnodup]
  rfl

theorem advance_mark (hentries : s.command.entries = before ++ entry :: after)
    (hnodup : ((before ++ entry :: after).map HoldEntry.address).Nodup) (prev : Option ℕ)
    (failedToRelease : ℕ) :
    s.advance lock results (.queued entry.address prev failedToRelease) =
      some (.atItem prev failedToRelease, { s with command := s.command.mark entry.address }) := by
  rw [advance, hentries, HoldEntry.entryAt_middle hnodup]
  rfl

theorem advance_unscheduling (h : s.Sound t)
    (hn : s.advance lock results .unscheduling = some (pc', s')) :
    (s'.settled pc').Sound t ∧ (s'.settled pc').Reached pc' := by
  obtain ⟨rfl, rfl⟩ := Prod.mk.inj (Option.some.inj hn)
  rcases Port.unscheduleTask_cases s.port lock s.command.task holdPhase with
    ⟨hfailed, hsame⟩ | ⟨t', htask, hmem, hrun⟩
  · rw [if_pos hfailed, hsame]
    exact ⟨h, trivial⟩
  · rw [hrun, if_neg (not_not.2 rfl)]
    have hgone : ((Function.update s.port.queues holdPhase
        ((s.port.queues holdPhase).erase t')) holdPhase).count t = 0 := by
      rcases h.schedules with ⟨hown, hcount⟩ | ⟨hnone, -⟩
      · obtain rfl : t' = t := Option.some.inj (htask.symm.trans hown)
        change (s.port.queues holdPhase).count t' = 1 at hcount
        simp [hcount]
      · cases htask.symm.trans hnone
    have hport : ({ s.port with
        queues := Function.update s.port.queues holdPhase
          ((s.port.queues holdPhase).erase t') } : Port).Schedules t holdPhase none :=
      .inr ⟨rfl, hgone⟩
    exact ⟨h.dropTask hport, trivial⟩

/-- At an item the thread has come to, or at the end of the loop -/
theorem advance_atItem {item : Option ℕ} {failedToRelease : ℕ} (h : s.Sound t)
    (hreached : s.Reached (.atItem item failedToRelease))
    (hn : s.advance lock results (.atItem item failedToRelease) = some (pc', s')) :
    (s'.settled pc').Sound t ∧ (s'.settled pc').Reached pc' := by
  obtain ⟨htask, hvisited⟩ := hreached
  cases item with
  | none =>
    obtain ⟨rfl, rfl⟩ := Prod.mk.inj (Option.some.inj hn)
    refine ⟨?_, trivial⟩
    change HoldRun.Sound t (if _ then _ else _)
    by_cases hfailed : s.command.unreleased failedToRelease = true
    · rw [if_pos hfailed]
      exact h
    · rw [if_neg hfailed]
      exact h.finish htask (released_of_unreleased hvisited hfailed)
  | some item =>
    obtain ⟨before, entry, after, hentries, rfl, hafter⟩ := hvisited.at_item
    rw [advance_at hentries (hentries ▸ h.nodup)] at hn
    obtain ⟨rfl, rfl⟩ := Prod.mk.inj (Option.some.inj hn)
    cases hheld : entry.held with
    | true => exact ⟨h, htask, before, entry, after, hentries, rfl, hheld, rfl, hafter⟩
    | false =>
      refine ⟨h, htask, before, entry :: after, hentries, rfl, fun hzero => ?_⟩
      exact List.forall_mem_cons.2 ⟨hheld, hafter hzero⟩

/-- The release of an entry that is held is queued, or that fails. -/
theorem advance_queueing {item : ℕ} {prev : Option ℕ} {failedToRelease : ℕ} (h : s.Sound t)
    (hreached : s.Reached (.queueing item prev failedToRelease))
    (hn : s.advance lock results (.queueing item prev failedToRelease) = some (pc', s')) :
    (s'.settled pc').Sound t ∧ (s'.settled pc').Reached pc' := by
  obtain ⟨htask, before, entry, after, hentries, rfl, hheld, rfl, hafter⟩ := hreached
  have hnodup := h.nodup
  rw [hentries] at hnodup
  rw [advance_queue hentries hnodup] at hn
  obtain ⟨rfl, rfl⟩ := Prod.mk.inj (Option.some.inj hn)
  by_cases hqueued : (s.xp.queueCommandEnd results entry.xpRef (some entry.address)).1 = .none
  · rw [if_pos hqueued]
    refine ⟨h.release htask hentries hheld hqueued, (mark_task _ _).trans htask, before,
      (s.command.keep entry).toList ++ after, ?_, rfl, fun hzero e he => ?_⟩
    · change (s.command.mark entry.address).entries = _
      rw [mark_entries, hentries, HoldEntry.markEntry_middle _ hnodup]
    · rcases List.mem_append.1 he with hkept | hlast
      · exact (keeps_keep s.command entry e (Option.mem_toList.1 hkept)).1
      · exact hafter hzero e hlast
  · rw [if_neg hqueued]
    rcases XpSide.queueCommandEnd_cases results entry.xpRef (some entry.address) s.xp with
      ⟨-, hsame⟩ | himpossible
    · rw [hsame]
      exact ⟨h, htask, before, entry :: after, hentries, rfl,
        fun himpossible => nomatch himpossible⟩
    · exact absurd (congrArg Prod.fst himpossible) hqueued

/-- **A step of a thread that is alone in `terminate`** keeps the entries in step with X-Plane, once
what the thread has begun is counted as done. -/
theorem advance_sound (h : (s.settled pc).Sound t) (hreached : (s.settled pc).Reached pc)
    (hn : s.advance lock results pc = some (pc', s')) :
    (s'.settled pc').Sound t ∧ (s'.settled pc').Reached pc' := by
  cases pc with
  | outside =>
    obtain ⟨rfl, rfl⟩ := Prod.mk.inj (Option.some.inj hn)
    exact ⟨Sound.send h _ _ _ _, trivial⟩
  | finished =>
    obtain ⟨rfl, rfl⟩ := Prod.mk.inj (Option.some.inj hn)
    by_cases htask : s.command.task = none
    · rw [if_pos (by rw [htask]; rfl)]
      exact ⟨h, htask, HoldEntry.visited_tail _⟩
    · rw [if_neg (by simpa using htask)]
      exact ⟨h, trivial⟩
  | unscheduling => exact advance_unscheduling h hn
  | unscheduled =>
    obtain ⟨rfl, rfl⟩ := Prod.mk.inj (Option.some.inj hn)
    refine ⟨h, dropTask_task _, ?_⟩
    change HoldEntry.Visited _ 0 s.command.dropTask.entries
    rw [dropTask_entries]
    exact HoldEntry.visited_tail _
  | atItem item failedToRelease => exact advance_atItem h hreached hn
  | queueing item prev failedToRelease => exact advance_queueing h hreached hn
  | queued item prev failedToRelease =>
    obtain ⟨entry, -, hn⟩ := Option.bind_eq_some_iff.1 hn
    obtain ⟨rfl, rfl⟩ := Prod.mk.inj (Option.some.inj hn)
    exact ⟨h, hreached⟩

end

/-- While the task is scheduled, the thread has not begun anything. -/
theorem settled_of_mem (h : (s.settled pc).Sound t) (hreached : (s.settled pc).Reached pc)
    (hmem : t ∈ s.port.queues holdPhase) :
    (∀ s' : HoldRun, s'.settled pc = s') ∧ ∀ s' : HoldRun, s'.Reached pc := by
  have hrunning : (s.settled pc).command.task = none → False := by
    intro hnone
    have hport : (s.settled pc).port = s.port := by cases pc <;> rfl
    rw [← hport] at hmem
    have htask := h.schedules.of_mem hmem
    cases hnone.symm.trans htask
  cases pc with
  | outside => exact ⟨fun _ => rfl, fun _ => trivial⟩
  | finished => exact ⟨fun _ => rfl, fun _ => trivial⟩
  | unscheduling => exact ⟨fun _ => rfl, fun _ => trivial⟩
  | unscheduled => exact (hrunning (dropTask_task _)).elim
  | atItem item failedToRelease => exact (hrunning hreached.1).elim
  | queueing item prev failedToRelease => exact (hrunning hreached.1).elim
  | queued item prev failedToRelease => exact (hrunning hreached.1).elim

/-- What a thread has begun does not depend on the queue and the port. -/
theorem settled_with (s : HoldRun) (pc : TerminatePc) (port : Port) (xp : XpSide) :
    { s with port := port, xp := xp }.settled pc =
      { s.settled pc with port := port, xp := xp } ∧
    (s.settled pc).port = s.port ∧ (s.settled pc).xp = s.xp ∧ (s.settled pc).ended = s.ended := by
  cases pc <;> exact ⟨rfl, rfl, rfl, rfl⟩

theorem Reached.of_command (h : s.Reached pc) (hcommand : s'.command = s.command) :
    s'.Reached pc := by
  cases pc <;> simp only [Reached, hcommand] at h ⊢ <;> exact h

end HoldRun

namespace HoldThreads

variable {t : ℕ} {s s' : HoldThreads}

/-- One of the threads is not in `terminate`; with what the other one has begun, the entries are in
step with X-Plane. -/
def Sound (t : ℕ) (s : HoldThreads) : Prop :=
  ∃ thread : TerminatingThread, s.pc thread.other = .outside ∧
    (s.run.settled (s.pc thread)).Sound t ∧ (s.run.settled (s.pc thread)).Reached (s.pc thread)

/-- The task is scheduled: both threads see the command as it is. -/
theorem Sound.of_mem (h : s.Sound t) (hmem : t ∈ s.run.port.queues holdPhase) :
    s.run.Sound t ∧ ∀ run : HoldRun, run.Sound t → Sound t { s with run := run } := by
  obtain ⟨thread, hother, hsound, hreached⟩ := h
  obtain ⟨hsame, hall⟩ := HoldRun.settled_of_mem hsound hreached hmem
  rw [hsame] at hsound
  refine ⟨hsound, fun run hrun => ⟨thread, hother, ?_, hall _⟩⟩
  rw [hsame]
  exact hrun

/-- A thread is alone if it is in `terminate`, or if the other one is not. -/
theorem Sound.alone (h : s.Sound t) {thread : TerminatingThread}
    (hguard : s.pc thread = .outside → s.pc thread.other = .outside) :
    s.pc thread.other = .outside ∧ (s.run.settled (s.pc thread)).Sound t ∧
      (s.run.settled (s.pc thread)).Reached (s.pc thread) := by
  obtain ⟨thread', hother, hsound, hreached⟩ := h
  by_cases hthread : thread = thread'
  · subst hthread
    exact ⟨hother, hsound, hreached⟩
  · have hswap : thread = thread'.other ∧ thread.other = thread' := by
      revert hthread
      cases thread <;> cases thread' <;> decide
    obtain ⟨rfl, hback⟩ := hswap
    rw [hback] at hguard ⊢
    have houtside := hguard hother
    rw [houtside] at hsound
    rw [hother]
    exact ⟨houtside, hsound, trivial⟩

end HoldThreads

theorem HoldThreadStep.sound {t : ℕ} {s s' : HoldThreads} {act : HoldThreadAct} (h : s.Sound t)
    (hguard : s.EntersAlone act) (hn : HoldThreadStep t s act s') : s'.Sound t := by
  cases hn with
  | flightloop hserver hmem =>
    obtain ⟨hrun, hkept⟩ := h.of_mem hmem
    exact hkept _ (HoldRun.processFlightloop_sound hrun hmem _ _ _)
  | post hserver hmem hpost =>
    obtain ⟨hrun, hkept⟩ := h.of_mem hmem
    exact hkept _ (HoldRun.processPost_sound hrun hmem _ _)
  | @advance thread lock results pc run hadvance hlock =>
    obtain ⟨hother, hsound, hreached⟩ := h.alone hguard
    obtain ⟨hsound', hreached'⟩ := HoldRun.advance_sound hsound hreached hadvance
    refine ⟨thread, ?_, ?_⟩
    · exact (Function.update_of_ne thread.other_ne _ _).trans hother
    · dsimp only
      rw [Function.update_self]
      exact ⟨hsound', hreached'⟩
  | @queue ops =>
    obtain ⟨thread, hother, hsound, hreached⟩ := h
    obtain ⟨hsettled, hport, hxp, -⟩ :=
      HoldRun.settled_with s.run (s.pc thread) s.run.port (s.run.xp.execAll ops)
    refine ⟨thread, hother, ?_, hreached.of_command (by rw [hsettled])⟩
    rw [hsettled, ← hport, ← hxp]
    exact (HoldStep.queue : HoldStep t (s.run.settled (s.pc thread)) (.queue ops) _).sound hsound
  | @elapse port hcount =>
    obtain ⟨thread, hother, hsound, hreached⟩ := h
    obtain ⟨hsettled, hport, hxp, -⟩ := HoldRun.settled_with s.run (s.pc thread) port s.run.xp
    refine ⟨thread, hother, ?_, hreached.of_command (by rw [hsettled])⟩
    rw [hsettled, ← hxp]
    rw [← hport] at hcount
    exact (HoldStep.elapse hcount : HoldStep t (s.run.settled (s.pc thread)) _ _).sound hsound

theorem holdThreads_sound_of_reachable {t : ℕ} {s : HoldThreads}
    (h : ((holdSystem t).restrict HoldThreads.EntersAlone).Reachable s) : s.Sound t := by
  refine h.invariant (fun s hs => ?_) fun _ _ _ _ hs hn => hn.2.sound hs hn.1
  refine ⟨.server, hs.2 _, ?_⟩
  rw [hs.2 .server]
  exact ⟨hs.1.sound, trivial⟩

/-- **X-Plane commands are begun and ended in turn.**  In every run of a CMTR or CMHD command in
which no thread enters `terminate` while another one is in it, the calls of `XPLMCommandBegin` and
`XPLMCommandEnd` for an entry alternate, starting with `XPLMCommandBegin`.  What is queued is
delivered once and in this order: what was delivered so far is followed by what waits in the queue,
and a successful flush delivers all of it.  If the command has been terminated by then, each entry
has been ended as often as it has been begun. -/
theorem hold_calls_balanced {t : ℕ} {s : HoldThreads}
    (h : ((holdSystem t).restrict HoldThreads.EntersAlone).Reachable s) :
    (∀ a, Alternating (s.run.xp.callsOf a)) ∧
      s.run.xp.queued = s.run.xp.delivered ++ s.run.xp.queue.list ∧
      ∀ mtxLock, (s.run.xp.flushXpqueue mtxLock).1 = .none →
        (s.run.xp.flushXpqueue mtxLock).2.delivered = s.run.xp.queued ∧
        (s.run.ended = true → ∀ a,
          ((s.run.xp.flushXpqueue mtxLock).2.callsOf a).count .opens =
            ((s.run.xp.flushXpqueue mtxLock).2.callsOf a).count .closes) := by
  obtain ⟨thread, -, hsound, -⟩ := holdThreads_sound_of_reachable h
  obtain ⟨-, -, hxp, hended⟩ := HoldRun.settled_with s.run (s.pc thread) s.run.port s.run.xp
  have htracks := hsound.tracks
  rw [hxp] at htracks
  refine ⟨fun a => ?_, htracks.delivers.queued_eq, fun mtxLock hflush => ⟨?_, fun hend a => ?_⟩⟩
  · obtain ⟨phase, hat, -⟩ := htracks.phases a
    exact hat.alternating
  · have hdelivers := (htracks.delivers.flushXpqueue mtxLock).queued_eq
    rw [htracks.delivers.flushed hflush, List.append_nil] at hdelivers
    rw [← hdelivers, XpSide.flushXpqueue_queued]
  · -- the flushed queue is one of a run, in which the command holds nothing
    have hflushed := htracks.execAll [.flushXpqueue mtxLock]
    obtain ⟨phase, hat, hheld, -⟩ := hflushed.phases a
    refine hat.balanced (fun hphase => ?_) (htracks.delivers.flushed hflush)
    have hmem := hheld.1 hphase
    rw [(hsound.ended (hended.trans hend)).2] at hmem
    cases hmem

/-! ### Runs -/

namespace HoldThreads

/-- Steps of the threads in an order, where nothing fails; if `alone`, no thread enters `terminate`
while the other one is in it. -/
def advanceAll (alone : Bool) : List TerminatingThread → HoldThreads → Option HoldThreads
  | [], s => some s
  | thread :: rest, s =>
    if thread = .destroyer ∧ s.pc .destroyer = .unscheduling ∧ s.pc .server ≠ .outside then none
    else if alone = true ∧ s.pc thread = .outside ∧ s.pc thread.other ≠ .outside then none
    else
      (s.run.advance .none .ok (s.pc thread)).bind fun r =>
        advanceAll alone rest ⟨r.2, Function.update s.pc thread r.1⟩

theorem reachable_advanceAll {t : ℕ} {guard : HoldThreads → HoldThreadAct → Prop} {alone : Bool}
    (hguard : ∀ s thread, (alone = true → s.EntersAlone (.advance thread .none .ok)) →
      guard s (.advance thread .none .ok))
    {s s' : HoldThreads} {threads : List TerminatingThread}
    (h : ((holdSystem t).restrict guard).Reachable s)
    (hrun : advanceAll alone threads s = some s') :
    ((holdSystem t).restrict guard).Reachable s' := by
  induction threads generalizing s with
  | nil =>
    cases hrun
    exact h
  | cons thread rest ih =>
    rw [advanceAll] at hrun
    split_ifs at hrun with hblocked hshared
    obtain ⟨r, hadvance, hrest⟩ := Option.bind_eq_some_iff.1 hrun
    refine ih (h.allowed (.advance thread .none .ok) (hguard s thread fun halone hpc => ?_)
      (.advance hadvance ?_)) hrest
    · by_contra hother
      exact hshared ⟨halone, hpc, hother⟩
    · rintro rfl hpc -
      by_contra hserver
      exact hblocked ⟨rfl, hpc, hserver⟩

end HoldThreads

/-- A command that holds two X-Plane commands for two frames, again and again. -/
def cmtrCreated : HoldThreads where
  run :=
    { command := .cmtr
        { channelId := 0, task := some 9, monitorMode := .cycle, requiresTime := false
          interval := 3, intervalDueTime := 0
          intervalRemainingFrames := 0, isIntervalFrames := true
          duration := 2, durationDueTime := 0
          durationRemainingFrames := 0, isDurationFrames := true
          timesRemaining := -2134896, initialized := false, failed := false, finishing := false
          holding := false, entries := [⟨1, bytes "a", false, none⟩, ⟨2, bytes "b", false, none⟩] }
      port := ⟨.empty, fun phase => if phase = holdPhase then [9] else [], []⟩
      xp := ⟨⟨false, false, []⟩, [], []⟩
      ended := false }
  pc := fun _ => .outside

/-- It holds them after the first flight loop. -/
def cmtrHolding : HoldThreads :=
  { cmtrCreated with
    run := cmtrCreated.run.processFlightloop 0
      (fun name => if name = bytes "a" then some 7 else some 8) .none }

theorem reachable_cmtrHolding {guard : HoldThreads → HoldThreadAct → Prop}
    (hguard : ∀ s millis findCommand confirm, guard s (.flightloop millis findCommand confirm)) :
    ((holdSystem 9).restrict guard).Reachable cmtrHolding := by
  have h₀ : ((holdSystem 9).restrict guard).Reachable cmtrCreated := by
    refine .start ⟨⟨⟨rfl, rfl, rfl, rfl⟩, rfl, rfl, by decide, by decide, by decide, ?_, ?_,
      ⟨rfl, fun _ => rfl⟩, rfl⟩, fun _ => rfl⟩
    · intro call hcall
      cases hcall
    · intro task htask
      cases htask
  exact h₀.allowed (.flightloop 0 (fun name => if name = bytes "a" then some 7 else some 8) .none)
    (hguard _ _ _ _) (.flightloop rfl (by decide))

/-- The command is terminated by a request in the middle of a hold: the flush ends both X-Plane
commands, the last one first. -/
theorem hold_calls_balanced_of_terminated :
    ∃ s : HoldThreads, s.run.ended = true ∧
      s.run.xp.queue.list = [⟨some 8, some 2⟩, ⟨some 7, some 1⟩] ∧
      (∀ a, Alternating (s.run.xp.callsOf a)) ∧
      (s.run.xp.flushXpqueue true).2.delivered = s.run.xp.queued ∧
      ∀ a, ((s.run.xp.flushXpqueue true).2.callsOf a).count .opens =
        ((s.run.xp.flushXpqueue true).2.callsOf a).count .closes := by
  have hsome : ((HoldThreads.advanceAll true (List.replicate 11 .server) cmtrHolding).map fun s =>
      (s.run.ended, s.run.xp.queue.list, (s.run.xp.flushXpqueue true).1)) =
      some (true, [⟨some 8, some 2⟩, ⟨some 7, some 1⟩], .none) := by decide +kernel
  obtain ⟨s, hs, heq⟩ := Option.map_eq_some_iff.1 hsome
  obtain ⟨hended, hrest⟩ := Prod.mk.inj heq
  obtain ⟨hlist, hflush⟩ := Prod.mk.inj hrest
  have hreachable := HoldThreads.reachable_advanceAll (fun _ _ halone => halone rfl)
    (reachable_cmtrHolding fun _ _ _ _ => trivial) hs
  obtain ⟨halternating, -, hdone⟩ := hold_calls_balanced hreachable
  obtain ⟨hdelivered, hcount⟩ := hdone true hflush
  exact ⟨s, hended, hlist, halternating, hdelivered, hcount hended⟩

/-- **Two threads release the same entry.**  The session is destroyed while a request terminates the
command: the task is gone, so that the second thread is let through at once, and both find the last
entry held.  X-Plane was told once to begin and is told twice to end, when the queue is flushed. -/
theorem hold_calls_unbalanced :
    ∃ s : HoldThreads, (holdSystem 9).Reachable s ∧ s.run.ended = true ∧
      (s.run.xp.flushXpqueue true).1 = .none ∧
      (s.run.xp.flushXpqueue true).2.callsOf 2 = [.opens, .closes, .closes] ∧
      ¬ Alternating ((s.run.xp.flushXpqueue true).2.callsOf 2) := by
  -- the server is about to release the last entry when the destroyer comes
  have hsome : ((HoldThreads.advanceAll false (List.replicate 5 .server ++
      List.replicate 6 .destroyer ++ List.replicate 6 .server) cmtrHolding).map fun s =>
      (s.run.ended, (s.run.xp.flushXpqueue true).1, (s.run.xp.flushXpqueue true).2.callsOf 2)) =
      some (true, .none, [.opens, .closes, .closes]) := by decide +kernel
  obtain ⟨s, hs, heq⟩ := Option.map_eq_some_iff.1 hsome
  obtain ⟨hended, hrest⟩ := Prod.mk.inj heq
  obtain ⟨hflush, hcalls⟩ := Prod.mk.inj hrest
  have hany : ((holdSystem 9).restrict fun _ _ => True).Reachable cmtrHolding :=
    reachable_cmtrHolding fun _ _ _ _ => trivial
  have hreachable := HoldThreads.reachable_advanceAll (fun _ _ _ => trivial) hany hs
  refine ⟨s, hreachable.of_restrict, hended, hflush, hcalls, ?_⟩
  rw [hcalls]
  decide

/-! ### Terminations as a whole -/

/-- A step in which no thread enters `terminate` while the other one is in it. -/
def HoldThreads.Moves (t : ℕ) (s s' : HoldThreads) : Prop :=
  ∃ act, s.EntersAlone act ∧ HoldThreadStep t s act s'

namespace HoldRun

variable {t : ℕ}

/-- Only the server may be in `terminate`. -/
def serverAt (s : HoldRun) (pc : TerminatePc) : HoldThreads :=
  ⟨s, Function.update (fun _ => .outside) .server pc⟩

theorem serverAt_outside (s : HoldRun) : s.serverAt .outside = ⟨s, fun _ => .outside⟩ := by
  rw [serverAt, Function.update_eq_self_iff.2 rfl]

/-- A step of the server. -/
theorem moves_of_advance {s s' : HoldRun} {pc pc' : TerminatePc} {lock : ErrorCode}
    {results : QueueResults} (h : s.advance lock results pc = some (pc', s')) :
    (s.serverAt pc).Moves t (s'.serverAt pc') := by
  refine ⟨.advance .server lock results, fun _ => rfl, ?_⟩
  have hstep : HoldThreadStep t (s.serverAt pc) (.advance .server lock results) _ :=
    .advance (by dsimp only [serverAt]; rw [Function.update_self]; exact h)
      fun himpossible => nomatch himpossible
  rw [serverAt, Function.update_idem] at hstep
  exact hstep

/-- Other entries, and another state of X-Plane. -/
def put (s : HoldRun) (entries : List HoldEntry) (xp : XpSide) : HoldRun :=
  { s with command := s.command.withEntries entries, xp := xp }

theorem put_entries (s : HoldRun) (entries : List HoldEntry) (xp : XpSide) :
    (s.put entries xp).command.entries = entries ∧ (s.put entries xp).command.keep =
      s.command.keep := by
  obtain ⟨command, port, xp', ended⟩ := s
  cases command <;> exact ⟨rfl, rfl⟩

theorem put_put (s : HoldRun) (entries entries' : List HoldEntry) (xp xp' : XpSide) :
    (s.put entries xp).put entries' xp' = s.put entries' xp' := by
  obtain ⟨command, port, xp'', ended⟩ := s
  cases command <;> rfl

theorem withTask_self (command : HoldCommand) : command.withTask command.task = command := by
  cases command <;> rfl

theorem withTask_entries (command : HoldCommand) (task : Option ℕ) :
    (command.withTask task).entries = command.entries := by
  cases command <;> rfl

theorem put_self (s : HoldRun) : s.put s.command.entries s.xp = s := by
  obtain ⟨command, port, xp, ended⟩ := s
  cases command <;> rfl

/-- One entry is visited. -/
theorem visit_moves (lock : ErrorCode) (env : HoldEntry.ReleaseEnv) (s : HoldRun)
    {before after : List HoldEntry} {entry : HoldEntry} (failedToRelease : ℕ) (xp : XpSide)
    (hnodup : ((before ++ entry :: after).map HoldEntry.address).Nodup) :
    Relation.ReflTransGen (HoldThreads.Moves t)
      ((s.put (before ++ entry :: after) xp).serverAt
        (.atItem (some entry.address) failedToRelease))
      (if entry.held then
        let q := (xp.execAll (env.others entry.address)).queueCommandEnd (env.results entry.address)
          entry.xpRef (some entry.address)
        if q.1 = .none then
          (s.put (before ++ ((s.command.keep entry).toList ++ after)) q.2).serverAt
            (.atItem (HoldEntry.tailItem before) failedToRelease)
        else
          (s.put (before ++ entry :: after) q.2).serverAt
            (.atItem (HoldEntry.tailItem before) (failedToRelease + 1))
      else
        (s.put (before ++ entry :: after) xp).serverAt
          (.atItem (HoldEntry.tailItem before) failedToRelease)) := by
  obtain ⟨hentries, hkeep⟩ := s.put_entries (before ++ entry :: after) xp
  have hvisit : (s.put (before ++ entry :: after) xp).advance lock .ok
      (.atItem (some entry.address) failedToRelease) =
      some (if entry.held then
          .queueing entry.address (HoldEntry.tailItem before) failedToRelease
        else .atItem (HoldEntry.tailItem before) failedToRelease,
        s.put (before ++ entry :: after) xp) :=
    advance_at hentries hnodup failedToRelease
  by_cases hheld : entry.held = true
  swap
  · rw [if_neg hheld] at hvisit ⊢
    exact .single (moves_of_advance hvisit)
  rw [if_pos hheld] at hvisit ⊢
  -- others use the queue before the release is queued
  have hothers : ((s.put (before ++ entry :: after) xp).serverAt
      (.queueing entry.address (HoldEntry.tailItem before) failedToRelease)).Moves t
      ((s.put (before ++ entry :: after) (xp.execAll (env.others entry.address))).serverAt
        (.queueing entry.address (HoldEntry.tailItem before) failedToRelease)) :=
    ⟨.queue (env.others entry.address), trivial, .queue⟩
  set xp' := xp.execAll (env.others entry.address)
  obtain ⟨hentries', hkeep'⟩ := s.put_entries (before ++ entry :: after) xp'
  set q := xp'.queueCommandEnd (env.results entry.address) entry.xpRef (some entry.address) with hq
  have hqueue : (s.put (before ++ entry :: after) xp').advance lock (env.results entry.address)
      (.queueing entry.address (HoldEntry.tailItem before) failedToRelease) =
      some (if q.1 = .none then .queued entry.address (HoldEntry.tailItem before) failedToRelease
        else .atItem (HoldEntry.tailItem before) (failedToRelease + 1),
        s.put (before ++ entry :: after) q.2) :=
    advance_queue hentries' hnodup _ failedToRelease
  refine .trans (.single (moves_of_advance hvisit)) (.head hothers ?_)
  by_cases hqueued : q.1 = .none
  · rw [if_pos hqueued] at hqueue ⊢
    obtain ⟨hentries'', hkeep''⟩ := s.put_entries (before ++ entry :: after) q.2
    have hmark : (s.put (before ++ entry :: after) q.2).advance lock .ok
        (.queued entry.address (HoldEntry.tailItem before) failedToRelease) =
        some (.atItem (HoldEntry.tailItem before) failedToRelease,
          s.put (before ++ ((s.command.keep entry).toList ++ after)) q.2) := by
      rw [advance_mark hentries'' hnodup, HoldCommand.mark, hentries'', hkeep'',
        HoldEntry.markEntry_middle _ hnodup]
      exact congrArg
        (fun run => some (TerminatePc.atItem (HoldEntry.tailItem before) failedToRelease, run))
        (s.put_put (before ++ entry :: after) (before ++ ((s.command.keep entry).toList ++ after))
          q.2 q.2)
    exact .head (moves_of_advance hqueue) (.single (moves_of_advance hmark))
  · rw [if_neg hqueued] at hqueue ⊢
    exact .single (moves_of_advance hqueue)

/-- The loop visits `entries`, from the last one to the first one. -/
theorem releaseAll_moves (lock : ErrorCode) (env : HoldEntry.ReleaseEnv) (s : HoldRun)
    (before entries after : List HoldEntry) (failedToRelease : ℕ) (xp : XpSide)
    (hnodup : ((before ++ (entries ++ after)).map HoldEntry.address).Nodup) :
    Relation.ReflTransGen (HoldThreads.Moves t)
      ((s.put (before ++ (entries ++ after)) xp).serverAt
        (.atItem (HoldEntry.tailItem (before ++ entries)) failedToRelease))
      ((s.put (before ++ ((HoldEntry.releaseAll env s.command.keep entries xp).1 ++ after))
        (HoldEntry.releaseAll env s.command.keep entries xp).2.2).serverAt
        (.atItem (HoldEntry.tailItem before)
          (failedToRelease + (HoldEntry.releaseAll env s.command.keep entries xp).2.1))) := by
  induction entries generalizing before with
  | nil =>
    rw [List.append_nil]
    exact .refl
  | cons entry rest ih =>
    have hrest := ih (before ++ [entry]) (by simpa using hnodup)
    set r := HoldEntry.releaseAll env s.command.keep rest xp with hr
    have hsublist := (HoldEntry.releaseAll_sublist env (keeps_keep s.command) rest xp).1
    rw [← hr] at hsublist
    have hnodup' : ((before ++ entry :: (r.1 ++ after)).map HoldEntry.address).Nodup := by
      refine hnodup.sublist ?_
      rw [List.map_append, List.map_append, List.map_cons, List.map_append, List.cons_append,
        List.map_cons, List.map_append]
      exact (List.Sublist.refl _).append ((hsublist.append (.refl _)).cons_cons _)
    have hvisit := visit_moves (t := t) lock env s (failedToRelease + r.2.1) r.2.2 hnodup'
    have hstart : before ++ [entry] ++ (rest ++ after) = before ++ (entry :: rest ++ after) :=
      by simp
    have hmiddle : before ++ [entry] ++ (r.1 ++ after) = before ++ entry :: (r.1 ++ after) :=
      by simp
    rw [hstart, hmiddle, HoldEntry.tailItem_append_singleton, List.append_assoc,
      List.singleton_append] at hrest
    refine .trans hrest ?_
    rw [HoldEntry.releaseAll]
    dsimp only at hvisit ⊢
    rw [← hr]
    split_ifs at hvisit ⊢
    · rw [List.append_assoc]
      exact hvisit
    · exact hvisit
    · exact hvisit

/-- `terminate` of both commands: the task is unscheduled, the loop releases what is held, and if
that has succeeded the end of the channel is requested. -/
theorem terminate_eq (lock : ErrorCode) (env : HoldEntry.ReleaseEnv) (s : HoldRun) :
    (s.terminate lock env).2 =
      let u := (s.port.send .finish s.command.channelId currentTimeReference none).unschedule lock
        s.command.task holdPhase
      let s₁ := { s with command := s.command.withTask u.2.1, port := u.2.2 }
      let r := HoldEntry.releaseAll env s₁.command.keep s₁.command.entries s₁.xp
      if u.1 ≠ ErrorCode.none then s₁
      else if (s₁.put r.1 r.2.2).command.unreleased r.2.1 then s₁.put r.1 r.2.2
      else
        { s₁.put r.1 r.2.2 with
          command := (s₁.put r.1 r.2.2).command.poison
          port := s₁.port.requestChannelDestruction s.command.channelId
          ended := true } := by
  obtain ⟨command, port, xp, ended⟩ := s
  cases command with
  | cmtr command =>
    unfold terminate Cmtr.terminate
    dsimp only [Cmtr.unschedule, Cmtr.State.send, Cmtr.taskPhase, holdPhase, HoldCommand.task,
      HoldCommand.channelId, put, HoldCommand.withTask, HoldCommand.entries, HoldCommand.keep,
      HoldCommand.withEntries, HoldCommand.poison, HoldCommand.unreleased, Option.map_none]
    split_ifs <;> simp_all
  | cmhd command =>
    unfold terminate Cmhd.terminate
    dsimp only [Cmhd.unschedule, Cmhd.State.send, Cmhd.taskPhase, holdPhase, HoldCommand.task,
      HoldCommand.channelId, put, HoldCommand.withTask, HoldCommand.entries, HoldCommand.keep,
      HoldCommand.withEntries, HoldCommand.poison, HoldCommand.unreleased, Option.map_none]
    split_ifs <;> simp_all

theorem processPost_of_terminates {s : HoldRun} (lock : ErrorCode) (env : HoldEntry.ReleaseEnv)
    (h : s.command.postTerminates = true) : s.processPost lock env = (s.terminate lock env).2 := by
  obtain ⟨command, port, xp, ended⟩ := s
  cases command with
  | cmtr command =>
    change (command.failed || command.finishing) = true at h
    simp [processPost, terminate, Cmtr.processPost, h]
  | cmhd command =>
    change command.failed = true at h
    simp [processPost, terminate, Cmhd.processPost, h]

/-- From the finished channel on, the task is taken off the schedule. -/
theorem unschedule_moves (lock : ErrorCode) (s : HoldRun) :
    let u := s.port.unschedule lock s.command.task holdPhase
    Relation.ReflTransGen (HoldThreads.Moves t) (s.serverAt .finished)
      ({ s with command := s.command.withTask u.2.1, port := u.2.2 }.serverAt
        (if u.1 ≠ ErrorCode.none then .outside
          else .atItem (HoldEntry.tailItem s.command.entries) 0)) := by
  dsimp only
  cases htask : s.command.task with
  | none =>
    have hchecked : s.advance lock .ok .finished =
        some (.atItem (HoldEntry.tailItem s.command.entries) 0, s) := by
      rw [advance, htask]
      rfl
    rw [show s.port.unschedule lock none holdPhase = (.none, none, s.port) from
      rfl, if_neg (by simp), ← htask, withTask_self]
    exact .single (moves_of_advance hchecked)
  | some task =>
    have hchecked : s.advance lock .ok .finished = some (.unscheduling, s) := by
      rw [advance, htask]
      rfl
    refine .head (moves_of_advance hchecked) ?_
    rcases Port.unscheduleTask_cases s.port lock (some task) holdPhase with
      ⟨hfailed, hsame⟩ | ⟨t', ht', -, hrun⟩
    · have hrefused : s.advance lock .ok .unscheduling = some (.outside, s) := by
        rw [advance, htask, if_pos hfailed, hsame]
      have hunschedule : s.port.unschedule lock (some task) holdPhase =
          ((s.port.unscheduleTask lock (some task) holdPhase).1, some task, s.port) := by
        rw [Port.unschedule, if_neg (by simp), if_pos hfailed, hsame]
      rw [hunschedule, if_pos hfailed, ← htask, withTask_self]
      exact .single (moves_of_advance hrefused)
    · set port' := (s.port.unscheduleTask lock (some task) holdPhase).2
      have hrun' : s.port.unscheduleTask lock (some task) holdPhase = (.none, port') :=
        Prod.ext (Prod.ext_iff.1 hrun).1 rfl
      have hgone : s.advance lock .ok .unscheduling =
          some (.unscheduled, { s with port := port' }) := by
        rw [advance, htask, hrun']
        rfl
      have hunschedule : s.port.unschedule lock (some task) holdPhase = (.none, none, port') := by
        rw [Port.unschedule, if_neg (by simp), hrun', if_neg (by simp)]
      rw [hunschedule, if_neg (by simp)]
      have hdropped : ({ s with port := port' } : HoldRun).advance lock .ok .unscheduled =
          some (.atItem (HoldEntry.tailItem s.command.entries) 0,
            { s with command := s.command.dropTask, port := port' }) := rfl
      exact .head (moves_of_advance hgone) (.single (moves_of_advance hdropped))

/-- **A termination as a whole** is what a thread does that is alone in `terminate`. -/
theorem terminate_advances {s : HoldRun} (lock : ErrorCode) (env : HoldEntry.ReleaseEnv)
    (hnodup : (s.command.entries.map HoldEntry.address).Nodup) :
    Relation.ReflTransGen (HoldThreads.Moves t) (s.serverAt .outside)
      ((s.terminate lock env).2.serverAt .outside) := by
  have hsent : s.advance lock .ok .outside = some (.finished,
    { s with port := s.port.send .finish s.command.channelId currentTimeReference none }) := rfl
  have hunschedule := unschedule_moves (t := t) lock
    { s with port := s.port.send .finish s.command.channelId currentTimeReference none }
  rw [terminate_eq]
  dsimp only at hunschedule ⊢
  refine .head (moves_of_advance hsent) ?_
  set u := (s.port.send .finish s.command.channelId currentTimeReference none).unschedule lock
    s.command.task holdPhase
  set s₁ : HoldRun := { s with command := s.command.withTask u.2.1, port := u.2.2 } with hs₁
  by_cases hfailed : u.1 ≠ .none
  · rw [if_pos hfailed] at hunschedule ⊢
    exact hunschedule
  rw [if_neg hfailed] at hunschedule ⊢
  refine .trans hunschedule ?_
  have hentries : s₁.command.entries = s.command.entries := withTask_entries _ _
  have hloop := releaseAll_moves (t := t) lock env s₁ [] s₁.command.entries [] 0 s₁.xp (by
    rw [List.nil_append, List.append_nil, hentries]
    exact hnodup)
  rw [List.nil_append, List.append_nil, List.nil_append, List.nil_append, List.append_nil, put_self,
    hentries, Nat.zero_add] at hloop
  rw [hentries]
  refine .trans hloop ?_
  set r := HoldEntry.releaseAll env s₁.command.keep s.command.entries s₁.xp
  have hfinish : (s₁.put r.1 r.2.2).advance lock .ok (.atItem none r.2.1) = some (.outside,
      if (s₁.put r.1 r.2.2).command.unreleased r.2.1 then s₁.put r.1 r.2.2
      else
        { s₁.put r.1 r.2.2 with
          command := (s₁.put r.1 r.2.2).command.poison
          port := s₁.port.requestChannelDestruction (s₁.put r.1 r.2.2).command.channelId
          ended := true }) := rfl
  have hchannel : (s₁.put r.1 r.2.2).command.channelId = s.command.channelId := by
    rw [hs₁]
    cases s.command <;> rfl
  rw [hchannel] at hfinish
  exact .single (moves_of_advance hfinish)

end HoldRun

/-- **Runs in which terminations follow one another** are runs of threads that are alone in
`terminate`. -/
theorem HoldStep.advances {t : ℕ} {s s' : HoldRun} {act : HoldAct} (h : s.Sound t)
    (hn : HoldStep t s act s') :
    Relation.ReflTransGen (HoldThreads.Moves t) ⟨s, fun _ => .outside⟩ ⟨s', fun _ => .outside⟩ := by
  rw [← HoldRun.serverAt_outside, ← HoldRun.serverAt_outside]
  cases hn with
  | @flightloop millis findCommand confirm hmem =>
    exact .single ⟨.flightloop millis findCommand confirm, trivial, .flightloop rfl hmem⟩
  | @post lock env hmem =>
    by_cases hpost : s.command.postTerminates = true
    · -- post-processing terminates the command
      rw [HoldRun.processPost_of_terminates lock env hpost]
      exact HoldRun.terminate_advances lock env h.tracks.nodup
    · exact .single ⟨.post lock env, trivial, .post rfl hmem (Bool.eq_false_iff.2 hpost)⟩
  | @term lock env => exact HoldRun.terminate_advances lock env h.tracks.nodup
  | @queue ops => exact .single ⟨.queue ops, trivial, .queue⟩
  | @elapse port hcount => exact .single ⟨.elapse port, trivial, .elapse hcount⟩

end XprcServer
