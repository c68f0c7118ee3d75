import XprcServer.Commands.Cmrg

/-!
# The order of locks

Any number of receive threads, each handling the requests of its session one after the other, and
the X-Plane thread, which runs the handlers of X-Plane commands, interleaved at their operations on
locks.  A receive thread takes the schedule, its session, and for CMRG the registry of X-Plane
commands inside; the X-Plane thread takes the registry and inside it the session of the command's
owner.  The operations of the threads are those that `handle_request` and `xp_command_handler`
perform in some state of the session; all that a call does depends on data it reads under the locks
it holds.

The two orders clash: `lockOrder_deadlock` is a run into a deadlock, of a TERM request for a CMRG
channel and an event of its X-Plane command.  It is the only way: as long as neither of the two
takes its first lock while the other one is on its way with its first lock (`NoClash`), no run
reaches a deadlock (`lockOrder_deadlock_free`).
-/

namespace XprcServer

open Lib

/-! ### The X-Plane thread -/

/-- What the X-Plane thread does with the locks: it takes the registry, and sessions inside. -/
def handlerOk (d : Lock → ℕ) : LockOp Lock → Prop
  | .lock .registry => d .registry = 0
  | .lock .session => 0 < d .registry
  | .unlock .registry => 0 < d .registry
  | .unlock .session => 0 < d .registry ∧ 0 < d .session
  | .lock .schedule => False
  | .unlock .schedule => False

/-- The code keeps to the discipline of handlers and leaves the registry as it found it.  Messages
on a channel that is gone leave the session locked. -/
structure HandlerSafe {μ α : Type} (w : World μ) (r : Outcome (World μ) (LockOp Lock) α) :
    Prop where
  walk : Walk handlerOk w.depth r.ops r.state.depth
  registry : r.state.depth .registry = w.depth .registry

/-- Called by one who holds the registry, the code is safe. -/
def HandlerOn {μ α : Type} (p : M μ α) : Prop :=
  ∀ w : World μ, 0 < w.depth .registry → HandlerSafe w (p.run w)

namespace HandlerOn

variable {μ α β : Type}

theorem of_keeps {p : M μ α} (hp : Logged.Keeps World.Calm p) : HandlerOn p := by
  intro w _
  obtain ⟨hops, hcalm⟩ := hp w
  refine ⟨?_, by rw [hcalm.depth]⟩
  rw [hops, hcalm.depth]
  exact .nil _

theorem pure (a : α) : HandlerOn (Pure.pure a : M μ α) := of_keeps (.pure a)

theorem bind {p : M μ α} {f : α → M μ β} (hp : HandlerOn p) (hf : ∀ a, HandlerOn (f a)) :
    HandlerOn (p >>= f) := by
  intro w hw
  have h := hp w hw
  have h' := hf (p.run w).val (p.run w).state (by rw [h.registry]; exact hw)
  exact ⟨h.walk.append h'.walk, h'.registry.trans h.registry⟩

theorem ite {c : Prop} [Decidable c] {p q : M μ α} (hp : HandlerOn p) (hq : HandlerOn q) :
    HandlerOn (if c then p else q) := by
  split_ifs
  · exact hp
  · exact hq

theorem message (call : ChannelCall) (id : ChannelId) (timestamp : ℤ)
    (message : Option (List UInt8)) :
    HandlerOn (call.exec id timestamp message : M μ ErrorCode) := by
  intro w hw
  by_cases h : w.refuses .session ∨ (w.channels.lookup id).isSome
  · have hbalanced : Session.Balanced w ((call.exec id timestamp message).run w) :=
      call.exec_balanced h
    obtain ⟨hframe, hnested⟩ := hbalanced
    refine ⟨?_, by rw [hframe.depth]⟩
    rw [hframe.depth]
    refine hnested.walk (fun n _ => ?_) fun n hn => ?_
    · simpa [handlerOk] using hw
    · simp only [handlerOk]
      exact ⟨by simpa using hw, by rw [Function.update_self]; omega⟩
  · -- the channel is gone, and the session stays locked
    rw [not_or] at h
    have hid : w.channels.lookup id = none := by simpa using h.2
    rw [call.exec_missing h.1 hid]
    exact ⟨.cons hw (.nil _), by simp [LockOp.apply]⟩

end HandlerOn

namespace Cmrg

theorem handleEvent_safe (ref : ℕ) (xpPhase : XplmCommandPhase) :
    HandlerOn (handleEvent ref xpPhase) := by
  have hfailed : HandlerOn (markFailed ref) := by
    unfold markFailed modifyCommand
    exact .of_keeps (Xpcommands.updateMemory_calm _)
  refine .bind (.of_keeps (.read _)) fun found => ?_
  cases found with
  | none => exact .pure _
  | some command =>
    refine .ite (.pure _) ?_
    cases eventMessage command.monitor xpPhase with
    | none => exact .ite hfailed (.pure _)
    | some text =>
      refine .bind (.message .continues _ _ _) fun err => .ite (.pure _) ?_
      exact .bind (.message .error _ _ _) fun _ => hfailed

end Cmrg

/-- Code that runs while it holds the registry. -/
theorem HandlerSafe.locked {μ α : Type} {w : World μ} {refused : ErrorCode → α} {body : M μ α}
    (hbody : HandlerOn body) (hw : w.depth .registry = 0) :
    HandlerSafe w ((locked .registry refused body).run w) := by
  by_cases h : w.refuses .registry
  · obtain ⟨n, -, hstate, hops⟩ := locked_refused refused body h
    refine ⟨?_, by rw [hstate]; rfl⟩
    rw [hstate, World.atTick_depth]
    rcases hops with hops | hops
    · rw [hops]; exact .nil _
    · rw [hops]
      refine .cons hw (.cons ?_ ?_)
      · simp [handlerOk, LockOp.apply]
      · simpa [LockOp.apply] using Walk.nil w.depth
  · have hheld : 0 < (w.holding .registry).depth .registry := by simp [LockOp.apply]
    obtain ⟨hwalk, hregistry⟩ := hbody (w.holding .registry) hheld
    rw [locked_granted h]
    refine ⟨.cons hw (hwalk.append (.cons ?_ (.nil _))), ?_⟩
    · simp only [handlerOk]
      rw [hregistry]
      exact hheld
    · simp only [World.apply_depth, LockOp.apply, Function.update_self, hregistry,
        World.holding_depth, Nat.add_sub_cancel]

/-- `xp_command_handler` with the callback of the proxies. -/
def commandHandler : ℕ → XplmCommandPhase → Option ℕ → M CmrgMemory XpcommandPropagation :=
  Xpcommands.xpCommandHandler Cmrg.handleEvent

theorem commandHandler_safe (inCommand : ℕ) (inPhase : XplmCommandPhase) (inRefcon : Option ℕ)
    {w : World CmrgMemory} (hw : w.depth .registry = 0) :
    HandlerSafe w ((commandHandler inCommand inPhase inRefcon).run w) := by
  cases inRefcon with
  | none => exact ⟨.nil _, rfl⟩
  | some proxy =>
    simp only [commandHandler, Xpcommands.xpCommandHandler, Xpcommands.lockedXpcommand,
      Xpcommands.readMemory, Logged.run_bind, Logged.run_read, Outcome.after_nil]
    cases w.memory.xpcommands proxy with
    | none => exact ⟨.nil _, rfl⟩
    | some found =>
      dsimp only
      rw [Logged.run_ite]
      split_ifs
      · exact ⟨.nil _, rfl⟩
      · refine .locked (.bind (.of_keeps (.read _)) fun found => ?_) hw
        cases found with
        | none => exact .pure _
        | some found =>
          refine .ite (.pure _) (.ite (.pure _) ?_)
          cases found.callback with
          | none => exact .pure _
          | some ref => exact .bind (Cmrg.handleEvent_safe ref inPhase) fun _ => .pure _

/-! ### The threads -/

/-- The threads: one receive thread for each session, and the thread of X-Plane. -/
inductive ServerThread (ι : Type) where
  | receive (i : ι)
  | xplane
  deriving DecidableEq

/-- The locks of the whole server. -/
inductive ServerLock (ι : Type) where
  | schedule
  | session (i : ι)
  | registry
  deriving DecidableEq

/-- The locks that code working on session `i` deals with. -/
def Lock.of {ι : Type} (i : ι) : Lock → ServerLock ι
  | .schedule => .schedule
  | .session => .session i
  | .registry => .registry

theorem Lock.of_injective {ι : Type} (i : ι) : Function.Injective (Lock.of i) := by
  intro l l' h
  cases l <;> cases l' <;> first | rfl | cases h

section

variable {ι : Type} [DecidableEq ι]

/-- What a thread may execute from the depths `D`: the operations of `handle_request` on the own
session, with any request and any commands beside CMRG, and of `xp_command_handler` for a command
owned by any session. -/
def serverPrograms : ServerThread ι → (ServerLock ι → ℕ) → List (LockOp (ServerLock ι)) → Prop
  | .receive i, D, ops => ∃ (others : Commands CmrgMemory)
      (s : SessionWorld (cmrgCommands others)) (request : Request),
      s.world.depth = D ∘ Lock.of i ∧
        ops = ((Server.handleRequest (cmrgCommands others) request).run s.world).ops.map
          (LockOp.map (Lock.of i))
  | .xplane, D, ops => ∃ (i : ι) (w : World CmrgMemory) (inCommand : ℕ)
      (inPhase : XplmCommandPhase) (inRefcon : Option ℕ),
      w.depth = D ∘ Lock.of i ∧
        ops = ((commandHandler inCommand inPhase inRefcon).run w).ops.map (LockOp.map (Lock.of i))

/-- The interleavings of the threads. -/
def serverSystem (ι : Type) [DecidableEq ι] :
    System (LockState (ServerThread ι) (ServerLock ι)) (LockAct (ServerThread ι) (ServerLock ι)) :=
  lockSystem serverPrograms

/-- A receive thread holds its session or the registry only while it holds the schedule, and takes
no lock while it holds the registry. -/
def receiveOk (d : Lock → ℕ) (o : LockOp Lock) : Prop :=
  (0 < d .session ∨ 0 < d .registry → 0 < d .schedule) ∧ ∀ l, o = .lock l → d .registry = 0

theorem commandOk.receiveOk {d : Lock → ℕ} {o : LockOp Lock} (h : commandOk d o) :
    receiveOk d o := by
  obtain ⟨hschedule, -, ho⟩ := h
  refine ⟨fun _ => hschedule, ?_⟩
  rintro l rfl
  exact ho

/-- The operations of a request, from depths at which the thread is idle. -/
theorem handleRequest_walk {μ : Type} {cmds : Commands μ} (s : SessionWorld cmds)
    (request : Request) (hsession : s.world.depth .session = 0)
    (hregistry : s.world.depth .registry = 0) :
    ∃ d', Walk receiveOk s.world.depth
        ((Server.handleRequest cmds request).run s.world).ops d' ∧
      d' .session = 0 ∧ d' .registry = 0 := by
  have hidle : ∀ o, receiveOk s.world.depth o := fun o =>
    ⟨by omega, fun _ _ => hregistry⟩
  by_cases h : s.world.refuses .schedule
  · refine ⟨s.world.depth, ?_, hsession, hregistry⟩
    rcases (Server.handleRequest_schedule_refused cmds request h).2 with
      hops | hops
    · rw [hops]; exact .nil _
    · rw [hops]
      refine .cons (hidle _) (.cons ?_ ?_)
      · refine ⟨fun _ => by simp [LockOp.apply], ?_⟩
        rintro l ⟨⟩
      · simpa [LockOp.apply] using Walk.nil s.world.depth
  · set d := (s.world.holding .schedule).depth with hd
    have hdT : 0 < d .schedule := by simp [hd, LockOp.apply]
    have hdS : d .session = 0 := by simp [hd, LockOp.apply, hsession]
    have hdR : d .registry = 0 := by simp [hd, LockOp.apply, hregistry]
    by_cases h' : (s.world.holding .schedule).refuses .session
    · -- the schedule stays locked
      obtain ⟨os, hos, hops⟩ :=
        (Server.handleRequest_session_refused cmds request h h').2
      rw [hops]
      refine ⟨d, .cons (hidle _) (hos.walk (fun n _ => ?_) fun n _ => ?_), hdS, hdR⟩
      · exact ⟨fun _ => by simp [LockOp.apply], fun _ _ => by simp [LockOp.apply, hregistry]⟩
      · exact ⟨fun _ => by simp [LockOp.apply], fun _ _ => by simp [LockOp.apply, hregistry]⟩
    · have hbody := (Server.handleLocked_orderly cmds s request).walk
        (by simp [Server.requestWorld, LockOp.apply, hregistry])
      rw [(Server.handleRequest_granted cmds request h h').2]
      have hback : ∀ l (d : Lock → ℕ), (LockOp.unlock l).apply ((LockOp.lock l).apply d) = d :=
        fun l d => by simp [LockOp.apply]
      refine ⟨s.world.depth, .append (.append (.cons (hidle _) (.cons ?_ (.nil _)))
        (hbody.mono fun _ _ => commandOk.receiveOk)) (.cons ?_ (.cons ?_ ?_)), hsession, hregistry⟩
      · exact ⟨fun _ => hdT, fun _ _ => hdR⟩
      · refine ⟨fun _ => by simp [Server.requestWorld, LockOp.apply], ?_⟩
        rintro l ⟨⟩
      · refine ⟨fun _ => by simp [Server.requestWorld, LockOp.apply], ?_⟩
        rintro l ⟨⟩
      · rw [Server.requestWorld, World.holding_depth, hback, World.holding_depth, hback]
        exact .nil _

/-! ### Walks of the threads -/

/-- Every operation of a thread is one of the disciplines above; a receive thread has nothing to do
with other sessions. -/
def serverOk : ServerThread ι → (ServerLock ι → ℕ) → LockOp (ServerLock ι) → Prop
  | .receive i, D, o => (∀ j, j ≠ i → D (.session j) = 0) ∧
      ∃ o', o = o'.map (Lock.of i) ∧ receiveOk (D ∘ Lock.of i) o'
  | .xplane, D, o => ∃ i o', o = o'.map (Lock.of i) ∧ handlerOk (D ∘ Lock.of i) o'

/-- What a thread may hold between two calls.  The schedule may be left locked by a request, and a
session by a handler. -/
def serverIdle : ServerThread ι → (ServerLock ι → ℕ) → Prop
  | .receive _, D => (∀ j, D (.session j) = 0) ∧ D .registry = 0
  | .xplane, D => D .registry = 0

theorem serverPrograms_walk (t : ServerThread ι) (D : ServerLock ι → ℕ)
    (ops : List (LockOp (ServerLock ι))) (hidle : serverIdle t D) (h : serverPrograms t D ops) :
    ∃ D', Walk (serverOk t) D ops D' ∧ serverIdle t D' := by
  cases t with
  | receive i =>
    obtain ⟨hsessions, hregistry⟩ := hidle
    obtain ⟨others, s, request, hdepth, rfl⟩ := h
    obtain ⟨d', hwalk, hd'S, hd'R⟩ := handleRequest_walk s request
      (by rw [hdepth]; exact hsessions i) (by rw [hdepth]; exact hregistry)
    obtain ⟨D', hwalk', hD', hother⟩ := hwalk.map (Lock.of_injective i) D hdepth.symm
      fun _ _ => rfl
    have hne : ∀ j, j ≠ i → ∀ l, Lock.of i l ≠ .session j := by
      intro j hj l
      cases l <;> simp [Lock.of, Ne.symm hj]
    refine ⟨D', hwalk'.mono ?_, fun j => ?_, ?_⟩
    · rintro D₁ o ⟨hD₁, o', rfl, hok⟩
      refine ⟨fun j hj => ?_, o', rfl, hok⟩
      rw [hD₁ _ (hne j hj)]
      exact hsessions j
    · by_cases hj : j = i
      · subst hj
        exact (congrFun hD' .session).trans hd'S
      · rw [hother _ (hne j hj)]
        exact hsessions j
    · exact (congrFun hD' .registry).trans hd'R
  | xplane =>
    obtain ⟨i, w, inCommand, inPhase, inRefcon, hdepth, rfl⟩ := h
    have hw : w.depth .registry = 0 := by rw [hdepth]; exact hidle
    obtain ⟨hwalk, hregistry⟩ := commandHandler_safe inCommand inPhase inRefcon hw
    obtain ⟨D', hwalk', hD', -⟩ := hwalk.map (Lock.of_injective i) D hdepth.symm
      fun _ _ => rfl
    refine ⟨D', hwalk'.mono ?_, ?_⟩
    · rintro D₁ o ⟨-, o', rfl, hok⟩
      exact ⟨i, o', rfl, hok⟩
    · exact (congrFun hD' .registry).trans (hregistry.trans hw)

theorem serverSystem_walking {s : LockState (ServerThread ι) (ServerLock ι)}
    (h : (serverSystem ι).Reachable s) : s.Walking serverOk serverIdle := by
  refine lockSystem_walking (fun t => ?_) serverPrograms_walk h
  cases t with
  | receive i => exact ⟨fun _ => rfl, rfl⟩
  | xplane => exact rfl

/-! ### Clashes -/

/-- The handler of an X-Plane command holds the registry and has yet to take session `k`. -/
def HandlerUnderWay (s : LockState (ServerThread ι) (ServerLock ι)) (k : ι) : Prop :=
  0 < s.depth .xplane .registry ∧ .lock (.session k) ∈ s.todo .xplane

/-- A request holds session `k` and has yet to take the registry. -/
def RequestUnderWay (s : LockState (ServerThread ι) (ServerLock ι)) (k : ι) : Prop :=
  0 < s.depth (.receive k) (.session k) ∧ .lock .registry ∈ s.todo (.receive k)

/-- A thread does not take its first lock while the other one is on its way with its first lock: a
request that goes on to take the registry locks its session only if no handler that goes on to take
this session has locked the registry, and the other way round. -/
def NoClash (s : LockState (ServerThread ι) (ServerLock ι)) :
    LockAct (ServerThread ι) (ServerLock ι) → Prop
  | .begin _ _ => True
  | .exec (.receive k) => ∀ rest, s.todo (.receive k) = .lock (.session k) :: rest →
      .lock .registry ∈ rest → ¬ HandlerUnderWay s k
  | .exec .xplane => ∀ rest, s.todo .xplane = .lock .registry :: rest →
      ∀ k, .lock (.session k) ∈ rest → ¬ RequestUnderWay s k

/-- Only taking a lock makes it held. -/
theorem eq_lock_of_apply_pos {L : Type} [DecidableEq L] {o : LockOp L} {d : L → ℕ} {l : L}
    (h : 0 < o.apply d l) (h' : ¬ 0 < d l) : o = .lock l := by
  cases o with
  | lock l' =>
    by_cases hl : l = l'
    · rw [hl]
    · rw [LockOp.apply, Function.update_of_ne hl] at h
      exact absurd h h'
  | unlock l' =>
    by_cases hl : l = l'
    · subst hl
      rw [LockOp.apply, Function.update_self] at h
      omega
    · rw [LockOp.apply, Function.update_of_ne hl] at h
      exact absurd h h'

variable {s : LockState (ServerThread ι) (ServerLock ι)}

omit [DecidableEq ι] in
theorem noClash_of_registry_free (h : s.depth .xplane .registry = 0) (k : ι) :
    NoClash s (.exec (.receive k)) := by
  rintro rest - - ⟨hpos, -⟩
  omega

theorem noClash_step {a : LockAct (ServerThread ι) (ServerLock ι)}
    {s' : LockState (ServerThread ι) (ServerLock ι)} (hwalk : s.Walking serverOk serverIdle)
    (hs : ∀ k, ¬ (HandlerUnderWay s k ∧ RequestUnderWay s k)) (hguard : NoClash s a)
    (h : LockStep serverPrograms s a s') : ∀ k,
    ¬ (HandlerUnderWay s' k ∧ RequestUnderWay s' k) := by
  cases h with
  | @begin t ops hidle h =>
    have hdepth := hwalk.idle_of_nil hidle
    rintro k ⟨hhandler, hrequest⟩
    cases t with
    | xplane =>
      -- an idle X-Plane thread does not hold the registry
      have : s.depth .xplane .registry = 0 := hdepth
      exact absurd hhandler.1 (by simp [this])
    | receive i =>
      by_cases hk : k = i
      · -- an idle receive thread does not hold its session
        subst hk
        exact absurd hrequest.1 (by simp [hdepth.1 k])
      · refine hs k ⟨by simpa [HandlerUnderWay] using hhandler, ?_⟩
        simpa [RequestUnderWay, hk] using hrequest
  | @exec t o rest h hfree =>
    rintro k ⟨hhandler, hrequest⟩
    cases t with
    | xplane =>
      have hrequest' : RequestUnderWay s k := by simpa [RequestUnderWay] using hrequest
      obtain ⟨hpos, hmem⟩ := hhandler
      simp only [Function.update_self] at hpos hmem
      by_cases hheld : 0 < s.depth .xplane .registry
      · exact hs k ⟨⟨hheld, by rw [h]; exact List.mem_cons_of_mem o hmem⟩, hrequest'⟩
      · have ho := eq_lock_of_apply_pos hpos hheld
        subst ho
        exact hguard rest h k hmem hrequest'
    | receive i =>
      have hhandler' : HandlerUnderWay s k := by simpa [HandlerUnderWay] using hhandler
      by_cases hk : k = i
      · subst hk
        obtain ⟨hpos, hmem⟩ := hrequest
        simp only [Function.update_self] at hpos hmem
        by_cases hheld : 0 < s.depth (.receive k) (.session k)
        · exact hs k ⟨hhandler', hheld, by rw [h]; exact List.mem_cons_of_mem o hmem⟩
        · have ho := eq_lock_of_apply_pos hpos hheld
          subst ho
          exact hguard rest h hmem hhandler'
      · exact hs k ⟨hhandler', by simpa [RequestUnderWay, hk] using hrequest⟩

theorem noClash_reachable (h : ((serverSystem ι).restrict NoClash).Reachable s) :
    ∀ k, ¬ (HandlerUnderWay s k ∧ RequestUnderWay s k) := by
  refine h.invariant ?_ fun s a s' hr hs hn =>
    noClash_step (serverSystem_walking hr.of_restrict) hs hn.1 hn.2
  rintro s rfl k ⟨⟨hpos, -⟩, -⟩
  exact absurd hpos (Nat.lt_irrefl 0)

/-! ### Cycles -/

theorem cycle_next {T : Type} {R : T → T → Prop} {t : T} (h : Relation.TransGen R t t) :
    ∃ t', R t t' ∧ Relation.TransGen R t' t' := by
  obtain ⟨t', hstep, hrest⟩ := Relation.TransGen.head'_iff.1 h
  exact ⟨t', hstep, .tail' hrest hstep⟩

section

variable (hwalk : s.Walking serverOk serverIdle) (hexcl : s.Exclusive)
include hwalk

theorem receive_other_session {i j : ι} (hj : j ≠ i) : s.depth (.receive i) (.session j) = 0 := by
  cases htodo : s.todo (.receive i) with
  | nil => exact (hwalk.idle_of_nil htodo).1 j
  | cons o rest => exact (hwalk.ok_head htodo).1 j hj

include hexcl

/-- What a waiting receive thread waits for: a lock it does not hold itself.  It does not hold the
registry, and its session only together with the schedule. -/
theorem receive_waits {i : ι} {t : ServerThread ι} (h : s.Waits (.receive i) t) :
    s.depth (.receive i) .registry = 0 ∧
      (0 < s.depth (.receive i) (.session i) → 0 < s.depth (.receive i) .schedule) ∧
      ∃ l rest, s.todo (.receive i) = .lock (Lock.of i l) :: rest ∧ 0 < s.depth t (Lock.of i l) ∧
        s.depth (.receive i) (Lock.of i l) = 0 := by
  obtain ⟨hne, l, rest, htodo, hheld⟩ := h
  obtain ⟨-, o', ho', hinv, hlock⟩ := hwalk.ok_head htodo
  cases o' with
  | unlock l' => cases ho'
  | lock l' =>
    obtain rfl : l = Lock.of i l' := by simpa [LockOp.map] using ho'
    refine ⟨hlock l' rfl, fun hs => hinv (.inl hs), l', rest, htodo, hheld, ?_⟩
    by_contra hown
    exact hne (hexcl _ _ _ hheld (Nat.pos_of_ne_zero hown))

/-- A receive thread on a cycle holds no registry. -/
theorem registry_of_cycle {i : ι} (h : Relation.TransGen s.Waits (.receive i) (.receive i)) :
    s.depth (.receive i) .registry = 0 := by
  obtain ⟨t, hwaits, -⟩ := cycle_next h
  exact (receive_waits hwalk hexcl hwaits).1

/-- A receive thread on a cycle that holds the schedule waits for the X-Plane thread. -/
theorem xplane_of_cycle_of_schedule {i : ι}
    (h : Relation.TransGen s.Waits (.receive i) (.receive i))
    (hschedule : 0 < s.depth (.receive i) .schedule) :
    ∃ l rest, s.todo (.receive i) = .lock (Lock.of i l) :: rest ∧
      0 < s.depth .xplane (Lock.of i l) ∧ s.depth (.receive i) (Lock.of i l) = 0 ∧
      Relation.TransGen s.Waits .xplane .xplane := by
  obtain ⟨t, hwaits, hcycle⟩ := cycle_next h
  obtain ⟨-, -, l, rest, htodo, hheld, hown⟩ := receive_waits hwalk hexcl hwaits
  cases t with
  | xplane => exact ⟨l, rest, htodo, hheld, hown, hcycle⟩
  | receive j =>
    have hji : i ≠ j := fun hij => hwaits.1 (by rw [hij])
    exfalso
    cases l with
    | schedule => exact absurd hschedule (by simp only [Lock.of] at hown; omega)
    | session =>
      have := receive_other_session hwalk hji
      simp only [Lock.of] at hheld
      omega
    | registry =>
      have := registry_of_cycle hwalk hexcl hcycle
      simp only [Lock.of] at hheld
      omega

/-- Every cycle goes through the X-Plane thread. -/
theorem xplane_of_cycle {t : ServerThread ι} (h : Relation.TransGen s.Waits t t) :
    Relation.TransGen s.Waits .xplane .xplane := by
  cases t with
  | xplane => exact h
  | receive i =>
    obtain ⟨t, hwaits, hcycle⟩ := cycle_next h
    obtain ⟨-, -, l, rest, -, hheld, -⟩ := receive_waits hwalk hexcl hwaits
    cases t with
    | xplane => exact hcycle
    | receive j =>
      have hji : i ≠ j := fun hij => hwaits.1 (by rw [hij])
      cases l with
      | schedule =>
        obtain ⟨-, -, -, -, -, hx⟩ := xplane_of_cycle_of_schedule hwalk hexcl hcycle hheld
        exact hx
      | session =>
        have := receive_other_session hwalk hji
        simp only [Lock.of] at hheld
        omega
      | registry =>
        have := registry_of_cycle hwalk hexcl hcycle
        simp only [Lock.of] at hheld
        omega

/-- Every cycle is a clash. -/
theorem clash_of_deadlocked (h : s.Deadlocked) : ∃ k, HandlerUnderWay s k ∧
    RequestUnderWay s k := by
  obtain ⟨t, ht⟩ := h
  obtain ⟨t', ⟨hne, l, rest, htodo, hheld⟩, hcycle⟩ := cycle_next (xplane_of_cycle hwalk hexcl ht)
  cases t' with
  | xplane => exact absurd rfl hne
  | receive k =>
    obtain ⟨i, o', ho', hok⟩ := hwalk.ok_head htodo
    have hnoRegistry := registry_of_cycle hwalk hexcl hcycle
    cases o' with
    | unlock l' => cases ho'
    | lock l' =>
      obtain rfl : l = Lock.of i l' := by simpa [LockOp.map] using ho'
      cases l' with
      | schedule => exact absurd hok (by simp [handlerOk])
      | registry => simp only [Lock.of] at hheld; omega
      | session =>
        -- the X-Plane thread waits for the session of the receive thread
        obtain rfl : i = k := by
          by_contra hik
          have := receive_other_session hwalk hik
          simp only [Lock.of] at hheld
          omega
        have hheldX : 0 < s.depth .xplane .registry := hok
        obtain ⟨t'', hwaits, -⟩ := cycle_next hcycle
        have hschedule := (receive_waits hwalk hexcl hwaits).2.1 hheld
        obtain ⟨l'', rest', htodo', hx, hown, -⟩ :=
          xplane_of_cycle_of_schedule hwalk hexcl hcycle hschedule
        refine ⟨i, ⟨hheldX, by rw [htodo]; exact List.mem_cons_self⟩, hheld, ?_⟩
        rw [htodo']
        cases l'' with
        | schedule => simp only [Lock.of] at hown; omega
        | session =>
          have : 0 < s.depth (.receive i) (.session i) := hheld
          simp only [Lock.of] at hown
          omega
        | registry => exact List.mem_cons_self

end

/-- **No deadlock without a clash.**  In every run in which no thread takes its first lock while the
other one is on its way with its first lock, no state has a cycle of threads each of which waits for
a lock that the next one holds. -/
theorem lockOrder_deadlock_free
    (h : ((serverSystem ι).restrict NoClash).Reachable s) : ¬ s.Deadlocked := by
  intro hdead
  have hr := h.of_restrict
  obtain ⟨k, hclash⟩ :=
    clash_of_deadlocked (serverSystem_walking hr) (lockSystem_exclusive hr) hdead
  exact noClash_reachable h k hclash

end

/-! ### A clash -/

/-- A session with a CMRG command running on the channel `aaaa`. -/
def cmrgWorld : World CmrgMemory where
  env := .calm
  tick := 0
  depth _ := 0
  channels := .single ⟨0, .confirmed, false, some .cmrg, some 1⟩
  referenceMillis := 0
  configs command := some (defaultConfig true command)
  closing := false
  wire := []
  memory :=
    { xpcommands := fun proxy =>
        if proxy = 0 then
          some ⟨.registered, bytes "a", bytes "a", .before, .stop, some 0, some 1⟩
        else none
      commands := [0]
      cmrg := fun ref =>
        if ref = 1 then some ⟨0, some 2, ⟨true, true⟩, some 0, true, false⟩ else none
      queue := [2]
      next := 3 }

/-- The command remembers the channel. -/
def cmrgSession : SessionWorld (cmrgCommands (.inert CmrgMemory)) where
  world := cmrgWorld
  remembers := by
    rintro id command ref ⟨channel, hid, -, hcommand, href⟩
    obtain ⟨rfl, rfl⟩ := ChannelsTable.eq_of_lookup_single hid
    cases hcommand
    cases href
    rfl

/-- The operations of a request to terminate the command. -/
def termOps : List (LockOp (ServerLock Unit)) :=
  [.lock .schedule, .lock (.session ()), .lock (.session ()), .unlock (.session ()),
    .lock .registry, .unlock .registry, .lock .schedule, .unlock .schedule,
    .unlock (.session ()), .unlock .schedule]

/-- The operations of an event of its X-Plane command. -/
def eventOps : List (LockOp (ServerLock Unit)) :=
  [.lock .registry, .lock (.session ()), .unlock (.session ()), .unlock .registry]

theorem serverPrograms_termOps : serverPrograms (.receive ()) (fun _ => 0) termOps :=
  ⟨.inert _, cmrgSession, ⟨0, bytes "TERM", [], []⟩, rfl, by decide +kernel⟩

theorem serverPrograms_eventOps : serverPrograms .xplane (fun _ => 0) eventOps :=
  ⟨(), cmrgWorld, 0, .begins, some 0, rfl, by decide +kernel⟩

/-- The request alone, when it has locked the session and is about to take the registry. -/
theorem lockOrder_deadlock_free_request :
    ∃ s : LockState (ServerThread Unit) (ServerLock Unit), RequestUnderWay s () ∧
      ¬ s.Deadlocked := by
  have h₀ : ((serverSystem Unit).restrict NoClash).Reachable _ := .start rfl
  have h₁ := h₀.step (LockAct.begin (.receive ()) termOps)
    ⟨trivial, .begin rfl serverPrograms_termOps⟩
  have h₂ := h₁.step (LockAct.exec (.receive ()))
    ⟨noClash_of_registry_free rfl (),
      .exec rfl (by rintro l ⟨⟩ (_ | _) ht; exact absurd rfl ht; rfl)⟩
  have h₃ := h₂.step (LockAct.exec (.receive ()))
    ⟨noClash_of_registry_free rfl (),
      .exec rfl (by rintro l ⟨⟩ (_ | _) ht; exact absurd rfl ht; rfl)⟩
  exact ⟨_, ⟨by decide, by decide⟩, lockOrder_deadlock_free h₃⟩

/-- The request has taken the session and waits for the registry; the handler of the event has taken
the registry and waits for the session. -/
theorem lockOrder_deadlock : ∃ s, (serverSystem Unit).Reachable s ∧ s.Deadlocked := by
  have h₀ : (serverSystem Unit).Reachable _ := .start rfl
  have h₁ := h₀.step _ (.begin rfl serverPrograms_termOps)
  have h₂ := h₁.step (LockAct.exec (.receive ()))
    (.exec rfl (by rintro l ⟨⟩ (_ | _) ht; exact absurd rfl ht; rfl))
  have h₃ := h₂.step (LockAct.exec (.receive ()))
    (.exec rfl (by rintro l ⟨⟩ (_ | _) ht; exact absurd rfl ht; rfl))
  have h₄ := h₃.step (LockAct.exec (.receive ()))
    (.exec rfl (by rintro l ⟨⟩ (_ | _) ht; exact absurd rfl ht; rfl))
  have h₅ := h₄.step (LockAct.exec (.receive ())) (.exec rfl (by rintro l ⟨⟩))
  have h₆ := h₅.step _ (.begin rfl serverPrograms_eventOps)
  have h₇ := h₆.step (LockAct.exec .xplane)
    (.exec rfl (by rintro l ⟨⟩ (_ | _) ht; rfl; exact absurd rfl ht))
  refine ⟨_, h₇, .receive (), .tail (.single (b := .xplane) ?_) ?_⟩
  · exact ⟨by decide, .registry, _, rfl, by decide⟩
  · exact ⟨by decide, .session (), _, rfl, by decide⟩

end XprcServer
