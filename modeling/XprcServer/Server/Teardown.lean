import XprcServer.Server.HandleRequest

/-!
# Destruction of a session

When a connection shuts down, the network maintenance thread destroys its session
(`shutdown_network_connection`, `on_connection_closing`, `destroy_session`) before it joins the
receive thread.  `destroy_session` sets `destruction_pending` and calls `lock_session` so that
every other thread has noticed before the parts of the session are destroyed.

Here each thread is seen through `Code`: its calls of `lock_session` and `unlock_session`, the
moment it sets the flag and the moments it starts to destroy a part.  `lock_session` is executed
statement by statement (`LockPhase`), since other threads run between its checks of the flag.

* `channelCall_trace`, `handleRequest_trace` : the message functions and `handle_request` use the
  lock of the session as their code here does;
* `destroySession_excludes_holders` : if no thread holds the lock of the session when the flag is
  set, none holds it when a part is destroyed;
* `destroySession_with_holder` : `lock_session` of the maintenance thread fails at its first check
  and does not wait for a thread that holds the lock.
-/

namespace XprcServer

open Lib

/-- What `destroy_session` destroys, in this order. -/
inductive SessionPart where
  | commandConfigs
  | channels
  | mutex
  | session
  deriving DecidableEq, Repr

/-- What a thread does with a session. -/
inductive Code where
  | done
  | lockSession (next : Bool → Code)
  | unlockSession (next : Code)
  | setDestructionPending (next : Code)
  | destroy (part : SessionPart) (next : Code)

namespace Code

/-- One after the other. -/
def seq : Code → Code → Code
  | done, c => c
  | lockSession next, c => lockSession fun success => (next success).seq c
  | unlockSession next, c => unlockSession (next.seq c)
  | setDestructionPending next, c => setDestructionPending (next.seq c)
  | destroy part next, c => destroy part (next.seq c)

/-- The code works on the session and does not destroy it. -/
def Client : Code → Prop
  | done => True
  | lockSession next => ∀ success, (next success).Client
  | unlockSession next => next.Client
  | setDestructionPending _ => False
  | destroy _ _ => False

/-- Nothing is destroyed before the flag is set. -/
def Guarded : Code → Prop
  | done => True
  | lockSession next => ∀ success, (next success).Guarded
  | unlockSession next => next.Guarded
  | setDestructionPending _ => True
  | destroy _ _ => False

theorem Client.seq {c c' : Code} (h : c.Client) (h' : c'.Client) : (c.seq c').Client := by
  induction c with
  | done => exact h'
  | lockSession next ih => exact fun success => ih success (h success)
  | unlockSession next ih => exact ih h
  | setDestructionPending next => exact h.elim
  | destroy part next => exact h.elim

/-! ### The threads -/

/-- The frame of the message functions; `found` is whether the channel exists. -/
def onChannel (found : Bool) (body : Code) : Code :=
  lockSession fun success =>
    if success then
      if found then body.seq (unlockSession done)
      else done -- the session stays locked
    else done

/-- `error_channel` -/
def errorChannel (found : Bool) : Code := onChannel found done

/-- `confirm_channel`, `continue_channel` and `finish_channel`; `failed` is whether the message
could not be sent. -/
def messageChannel (found failed found' : Bool) : Code :=
  onChannel found (if failed then errorChannel found' else done)

/-- `handle_request` after the schedule was locked; `body` is what the command does. -/
def handleRequest (body : Code) : Code :=
  lockSession fun success => if success then body.seq (unlockSession done) else done

/-- `destroy_session`; `configs` is whether `command_configs` exists. -/
def destroySession (configs : Bool) : Code :=
  setDestructionPending <| lockSession fun _ =>
    let rest := destroy .channels (destroy .mutex (destroy .session done))
    if configs then destroy .commandConfigs rest else rest

/-- `on_connection_closing`; `unregister_session` does not touch the session. -/
def onConnectionClosing (configs : Bool) : Code := destroySession configs

/-- `shutdown_network_connection` until the handler reference is cleared. -/
def shutdownNetworkConnection (inUse handlerReference configs : Bool) : Code :=
  if inUse && handlerReference then onConnectionClosing configs else done

/-- A thread that works through a list of calls. -/
def loop : List Code → Code
  | [] => done
  | call :: calls => call.seq (loop calls)

theorem onChannel_client {body : Code} (h : body.Client) (found : Bool) :
    (onChannel found body).Client := by
  rintro (_ | _)
  · trivial
  · cases found with
    | false => trivial
    | true => exact h.seq trivial

theorem errorChannel_client (found : Bool) : (errorChannel found).Client := by
  have hdone : done.Client := trivial
  exact onChannel_client hdone found

theorem messageChannel_client (found failed found' : Bool) :
    (messageChannel found failed found').Client := by
  refine onChannel_client ?_ found
  cases failed with
  | false => trivial
  | true => exact errorChannel_client found'

theorem handleRequest_client {body : Code} (h : body.Client) : (handleRequest body).Client := by
  rintro (_ | _)
  · trivial
  · exact h.seq trivial

theorem loop_client {calls : List Code} (h : ∀ call ∈ calls, call.Client) :
    (loop calls).Client := by
  induction calls with
  | nil => trivial
  | cons call calls ih =>
    exact (h call (by simp)).seq (ih fun c hc => h c (by simp [hc]))

theorem shutdownNetworkConnection_guarded (inUse handlerReference configs : Bool) :
    (shutdownNetworkConnection inUse handlerReference configs).Guarded := by
  unfold shutdownNetworkConnection
  split_ifs
  · trivial
  · trivial

end Code

/-- A call of one of the four message functions, by the code it runs. -/
inductive MessageCode : Code → Prop
  | error (found : Bool) : MessageCode (.errorChannel found)
  | message (found failed found' : Bool) : MessageCode (.messageChannel found failed found')

/-- The threads that work on a session; `ι` are those that run task callbacks. -/
inductive SessionThread (ι : Type) where
  | maintenance
  | receive
  | callback (i : ι)
  deriving DecidableEq

/-- What the threads execute. -/
inductive Executes {ι : Type} : SessionThread ι → Code → Prop
  | maintenance (inUse handlerReference configs : Bool) :
      Executes .maintenance (.shutdownNetworkConnection inUse handlerReference configs)
  | receive (bodies : List Code) (h : ∀ body ∈ bodies, body.Client) :
      Executes .receive (.loop (bodies.map .handleRequest))
  | callback (i : ι) (calls : List Code) (h : ∀ call ∈ calls, MessageCode call) :
      Executes (.callback i) (.loop calls)

theorem Executes.client {ι : Type} {t : SessionThread ι} {c : Code} (h : Executes t c)
    (ht : t ≠ .maintenance) : c.Client := by
  cases h with
  | maintenance => exact absurd rfl ht
  | receive bodies hbodies =>
    refine Code.loop_client fun call hcall => ?_
    obtain ⟨body, hbody, rfl⟩ := List.mem_map.1 hcall
    exact Code.handleRequest_client (hbodies body hbody)
  | callback i calls hcalls =>
    refine Code.loop_client fun call hcall => ?_
    cases hcalls call hcall with
    | error found => exact Code.errorChannel_client found
    | message found failed found' => exact Code.messageChannel_client found failed found'

theorem Executes.guarded {ι : Type} {c : Code} (h : Executes (.maintenance : SessionThread ι) c) :
    c.Guarded := by
  cases h with
  | maintenance inUse handlerReference configs =>
    exact Code.shutdownNetworkConnection_guarded inUse handlerReference configs

/-! ### The operations of the threads on the lock -/

/-- Operations on the lock of the session that the code can perform, by what `lock_session` finds:
it locks, it is refused at once, or it locks and releases again. -/
inductive Code.Trace : Code → List (LockOp Lock) → Prop
  | done : Trace .done []
  | lock {next : Bool → Code} {os : List (LockOp Lock)} (h : Trace (next true) os) :
      Trace (.lockSession next) (.lock .session :: os)
  | refuse {next : Bool → Code} {os : List (LockOp Lock)} (h : Trace (next false) os) :
      Trace (.lockSession next) os
  | release {next : Bool → Code} {os : List (LockOp Lock)} (h : Trace (next false) os) :
      Trace (.lockSession next) (.lock .session :: .unlock .session :: os)
  | unlock {next : Code} {os : List (LockOp Lock)} (h : Trace next os) :
      Trace (.unlockSession next) (.unlock .session :: os)

/-- Operations on the lock of the session. -/
def onSession (o : LockOp Lock) : Bool := o = .lock .session ∨ o = .unlock .session

/-- Code that performs the operations of a list on the lock of the session. -/
def Code.ofOps : List (LockOp Lock) → Code
  | [] => .done
  | .lock .session :: os => .lockSession fun _ => ofOps os
  | .unlock .session :: os => .unlockSession (ofOps os)
  | _ :: os => ofOps os

section

variable {μ : Type} {w : World μ}

theorem Code.Trace.seq {c c' : Code} {os os' : List (LockOp Lock)} (h : c.Trace os)
    (h' : c'.Trace os') : (c.seq c').Trace (os ++ os') := by
  induction h with
  | done => exact h'
  | lock _ ih => exact .lock ih
  | refuse _ ih => exact .refuse ih
  | release _ ih => exact .release ih
  | unlock _ ih => exact .unlock ih

theorem Code.ofOps_trace (os : List (LockOp Lock)) : (ofOps os).Trace (os.filter onSession) := by
  fun_induction ofOps os with
  | case1 => exact .done
  | case2 os ih => exact .lock ih
  | case3 os ih => exact .unlock ih
  | case4 o os hlock hunlock ih =>
    have hother : onSession o = false := by
      simp only [onSession, decide_eq_false_iff_not, not_or]
      exact ⟨hlock, hunlock⟩
    rw [List.filter_cons_of_neg (by simp [hother])]
    exact ih

theorem Code.ofOps_client (os : List (LockOp Lock)) : (ofOps os).Client := by
  fun_induction ofOps os with
  | case1 => trivial
  | case2 os ih => exact fun _ => ih
  | case3 os ih => exact ih
  | case4 o os _ _ ih => exact ih

theorem lockSession_trace {next : Bool → Code} {os : List (LockOp Lock)}
    (h : (next (lockSession.run w).val).Trace os) :
    (Code.lockSession next).Trace ((lockSession.run w).ops ++ os) := by
  by_cases hr : w.refuses .session
  · obtain ⟨n, -, hval, -, hops, -⟩ := lockFlagged_refused hr
    have hsame : (lockSession.run w).ops = ((lockFlagged .session).run w).ops := by
      simp [lockSession]
    have hfalse : (lockSession.run w).val = false := by simpa [lockSession] using hval
    rw [hfalse] at h
    rw [hsame]
    rcases hops with hops | hops
    · rw [hops]; exact .refuse h
    · rw [hops]; exact .release h
  · rw [Session.lockSession_granted hr] at h ⊢
    exact .lock h

theorem onChannel_trace {P : Code → Prop} (hdone : P .done) {id : ChannelId}
    {body : Channel → M μ ErrorCode}
    (h : ∀ channel w', ∃ c, P c ∧ c.Trace ((body channel).run w').ops) :
    ∃ found c, P c ∧ (Code.onChannel found c).Trace ((Session.onChannel id body).run w).ops := by
  unfold Session.onChannel
  rw [Logged.run_bind, Outcome.after_ops]
  cases hval : (lockSession.run w).val with
  | false => exact ⟨false, .done, hdone, lockSession_trace (by rw [hval]; exact .done)⟩
  | true =>
    cases hid : (lockSession.run w).state.channels.lookup id with
    | none =>
      refine ⟨false, .done, hdone, lockSession_trace ?_⟩
      simpa [hval, hid] using Code.Trace.done
    | some channel =>
      obtain ⟨c, hc, htrace⟩ := h channel (lockSession.run w).state
      refine ⟨true, c, hc, lockSession_trace ?_⟩
      simpa [hval, hid, unlockSession] using htrace.seq (.unlock .done)

theorem sendChannel_trace (id : ChannelId) (channel : Channel) (action : ChannelAction)
    (timestamp : ℤ) (message : Option (List UInt8)) (w : World μ) :
    Code.done.Trace ((Session.sendChannel id channel action timestamp message).run w).ops := by
  rw [(Session.sendChannel_keeps id channel action timestamp message w).1]
  exact .done

theorem errorChannel_trace (id : ChannelId) (timestamp : ℤ) (message : Option (List UInt8))
    (w : World μ) :
    ∃ found, (Code.errorChannel found).Trace
      ((Session.errorChannel id timestamp message).run w).ops := by
  obtain ⟨found, c, rfl, htrace⟩ := onChannel_trace (P := (· = .done)) rfl fun channel w' =>
    ⟨_, rfl, sendChannel_trace id channel .err timestamp message w'⟩
  exact ⟨found, htrace⟩

theorem messageChannel_trace (action : Channel → ChannelAction) (failure : String) (id : ChannelId)
    (timestamp : ℤ) (message : Option (List UInt8)) (w : World μ) :
    ∃ found failed found', (Code.messageChannel found failed found').Trace
      ((Session.messageChannel action failure id timestamp message).run w).ops := by
  have hbody : ∃ found c,
      (∃ failed found' : Bool, c = if failed then .errorChannel found' else .done) ∧
      (Code.onChannel found c).Trace
        ((Session.messageChannel action failure id timestamp message).run w).ops := by
    refine onChannel_trace ⟨false, false, rfl⟩ fun channel w' => ?_
    rw [Logged.run_bind, Outcome.after_ops, Logged.run_ite]
    have hsend := sendChannel_trace id channel (action channel) timestamp message w'
    split_ifs with herr
    · obtain ⟨found', htrace⟩ := errorChannel_trace id timestamp (some (bytes failure))
        ((Session.sendChannel id channel (action channel) timestamp message).run w').state
      refine ⟨.errorChannel found', ⟨true, found', rfl⟩, hsend.seq ?_⟩
      simpa [Code.errorChannel] using htrace
    · exact ⟨.done, ⟨false, false, rfl⟩, hsend.seq .done⟩
  obtain ⟨found, c, ⟨failed, found', rfl⟩, htrace⟩ := hbody
  exact ⟨found, failed, found', htrace⟩

/-- The message functions use the lock of the session as their code here does. -/
theorem channelCall_trace (call : ChannelCall) (id : ChannelId) (timestamp : ℤ)
    (message : Option (List UInt8)) (w : World μ) :
    ∃ c, MessageCode c ∧ c.Trace ((call.exec id timestamp message).run w).ops := by
  have hmessage : ∀ action failure, ∃ c, MessageCode c ∧
      c.Trace ((Session.messageChannel action failure id timestamp message).run w).ops := by
    intro action failure
    obtain ⟨found, failed, found', htrace⟩ :=
      messageChannel_trace action failure id timestamp message w
    exact ⟨_, .message found failed found', htrace⟩
  cases call with
  | confirm => exact hmessage _ _
  | continues => exact hmessage _ _
  | finish => exact hmessage _ _
  | error =>
    obtain ⟨found, htrace⟩ := errorChannel_trace id timestamp message w
    exact ⟨_, .error found, htrace⟩

theorem lockSession_filter (w : World μ) :
    (lockSession.run w).ops.filter onSession = (lockSession.run w).ops := by
  by_cases hr : w.refuses .session
  · obtain ⟨n, -, -, -, hops, -⟩ := lockFlagged_refused hr
    rcases hops with hops | hops <;> simp [lockSession, hops, onSession]
  · simp [Session.lockSession_granted hr, onSession]

/-- `handle_request` does not touch the lock of the session, or uses it as its code here does. -/
theorem handleRequest_trace (cmds : Commands μ) (request : Request) (w : World μ) :
    let os := ((Server.handleRequest cmds request).run w).ops.filter onSession
    os = [] ∨ ∃ body, body.Client ∧ (Code.handleRequest body).Trace os := by
  intro os
  by_cases h : w.refuses .schedule
  · left
    rcases (Server.handleRequest_schedule_refused cmds request h).2 with hops | hops
    · simp [os, hops]
    · simp [os, hops, onSession]
  · right
    have hlock : lockSchedule.run w = ⟨.none, w.holding .schedule, [.lock .schedule]⟩ :=
      lockFlagged_granted h
    let w' := w.holding .schedule
    let body := Code.ofOps ((Server.handleLocked cmds request).run (lockSession.run w').state).ops
    refine ⟨body, Code.ofOps_client _, ?_⟩
    cases hval : (lockSession.run w').val with
    | false =>
      have hos : os = (lockSession.run w').ops ++ [] := by
        simp [os, w', Server.handleRequest, hlock, hval, lockSession_filter, onSession,
          Server.closeNetworkConnection]
      rw [hos]
      exact lockSession_trace (by rw [hval]; exact .done)
    | true =>
      have hos : os = (lockSession.run w').ops ++
          (((Server.handleLocked cmds request).run (lockSession.run w').state).ops.filter
            onSession ++ [.unlock .session]) := by
        simp [os, w', Server.handleRequest, hlock, hval, lockSession_filter, onSession,
          unlockSession, unlockSchedule]
      rw [hos]
      refine lockSession_trace ?_
      rw [hval]
      exact (Code.ofOps_trace _).seq (.unlock .done)

end

/-! ### Interleavings -/

/-- Where a thread is in `lock_session`. -/
inductive LockPhase where
  /-- Not inside, or before the first check of the flag. -/
  | outside
  /-- The flag was clear; the mutex is to be locked. -/
  | checked
  /-- The mutex is locked; the flag is to be checked again. -/
  | acquired
  deriving DecidableEq

/-- A thread: what it still has to do, and how often it has locked the mutex. -/
structure ThreadState where
  code : Code
  phase : LockPhase
  depth : ℕ

/-- The thread is between a successful `lock_session` and its `unlock_session`.  A mutex that was
locked and still awaits the second check does not count. -/
def ThreadState.Holds (th : ThreadState) : Prop :=
  match th.phase with
  | .acquired => 1 < th.depth
  | _ => 0 < th.depth

/-- A step of one thread, and the flag after it; `free` is whether no other thread has locked the
mutex. -/
inductive ThreadStep (pending : Bool) (free : Prop) : ThreadState → Bool → ThreadState → Prop
  | refuse {next : Bool → Code} {d : ℕ} (h : pending = true) :
      ThreadStep pending free ⟨.lockSession next, .outside, d⟩ pending ⟨next false, .outside, d⟩
  | check {next : Bool → Code} {d : ℕ} (h : pending = false) :
      ThreadStep pending free ⟨.lockSession next, .outside, d⟩ pending
        ⟨.lockSession next, .checked, d⟩
  | mutexFails {next : Bool → Code} {d : ℕ} :
      ThreadStep pending free ⟨.lockSession next, .checked, d⟩ pending ⟨next false, .outside, d⟩
  | acquire {next : Bool → Code} {d : ℕ} (h : free) :
      ThreadStep pending free ⟨.lockSession next, .checked, d⟩ pending
        ⟨.lockSession next, .acquired, d + 1⟩
  | release {next : Bool → Code} {d : ℕ} (h : pending = true) :
      ThreadStep pending free ⟨.lockSession next, .acquired, d⟩ pending
        ⟨next false, .outside, d - 1⟩
  | succeed {next : Bool → Code} {d : ℕ} (h : pending = false) :
      ThreadStep pending free ⟨.lockSession next, .acquired, d⟩ pending ⟨next true, .outside, d⟩
  | unlock {next : Code} {d : ℕ} :
      ThreadStep pending free ⟨.unlockSession next, .outside, d⟩ pending ⟨next, .outside, d - 1⟩
  | setPending {next : Code} {d : ℕ} :
      ThreadStep pending free ⟨.setDestructionPending next, .outside, d⟩ true ⟨next, .outside, d⟩
  | destroy {part : SessionPart} {next : Code} {d : ℕ} :
      ThreadStep pending free ⟨.destroy part next, .outside, d⟩ pending ⟨next, .outside, d⟩

/-- A session and the threads that work on it. -/
structure Teardown (ι : Type) where
  /-- `session->destruction_pending` -/
  pending : Bool
  thread : SessionThread ι → ThreadState

variable {ι : Type} [DecidableEq ι]

/-- No other thread has locked the mutex. -/
def Teardown.Free (s : Teardown ι) (t : SessionThread ι) : Prop :=
  ∀ t', t' ≠ t → (s.thread t').depth = 0

/-- The state after a step of `t`. -/
def Teardown.after (s : Teardown ι) (t : SessionThread ι) (pending : Bool) (th : ThreadState) :
    Teardown ι :=
  ⟨pending, Function.update s.thread t th⟩

@[simp] theorem Teardown.after_self (s : Teardown ι) (t : SessionThread ι) (pending : Bool)
    (th : ThreadState) : (s.after t pending th).thread t = th :=
  Function.update_self ..

theorem Teardown.after_of_ne (s : Teardown ι) {t t' : SessionThread ι} (ht : t' ≠ t)
    (pending : Bool) (th : ThreadState) : (s.after t pending th).thread t' = s.thread t' :=
  Function.update_of_ne ht ..

/-- The maintenance thread shuts the connection down while the receive thread handles requests and
task callbacks send messages, in any interleaving. -/
def teardownSystem (ι : Type) [DecidableEq ι] : System (Teardown ι) (SessionThread ι) where
  init s := ∃ codes : SessionThread ι → Code, (∀ t, Executes t (codes t)) ∧
    s = ⟨false, fun t => ⟨codes t, .outside, 0⟩⟩
  next s t s' := ∃ pending th, ThreadStep s.pending (s.Free t) (s.thread t) pending th ∧
    s' = s.after t pending th

/-- The flag is set only while no other thread holds the lock of the session. -/
def FlagsWhenFree (s : Teardown ι) (t : SessionThread ι) : Prop :=
  ∀ next, (s.thread t).code = .setDestructionPending next →
    ∀ t', t' ≠ t → ¬ (s.thread t').Holds

namespace ThreadStep

variable {pending pending' : Bool} {free : Prop} {th th' : ThreadState}

/-- Once the flag is set no thread gets the lock any more: who passed the first check in time finds
the flag at the second. -/
theorem holds (h : ThreadStep true free th pending' th') (hth : th'.Holds) : th.Holds := by
  cases h with
  | refuse => exact hth
  | check h => cases h
  | mutexFails => exact hth
  | acquire =>
    simp only [ThreadState.Holds] at hth ⊢
    omega
  | release =>
    simp only [ThreadState.Holds] at hth ⊢
    omega
  | succeed h => cases h
  | unlock =>
    simp only [ThreadState.Holds] at hth ⊢
    omega
  | setPending => exact hth
  | destroy => exact hth

theorem pending_stays (h : ThreadStep true free th pending' th') : pending' = true := by
  cases h <;> rfl

theorem client (h : ThreadStep pending free th pending' th') (hth : th.code.Client) :
    th'.code.Client ∧ pending' = pending := by
  cases h with
  | refuse => exact ⟨hth false, rfl⟩
  | check => exact ⟨hth, rfl⟩
  | mutexFails => exact ⟨hth false, rfl⟩
  | acquire => exact ⟨hth, rfl⟩
  | release => exact ⟨hth false, rfl⟩
  | succeed => exact ⟨hth true, rfl⟩
  | unlock => exact ⟨hth, rfl⟩
  | setPending => exact hth.elim
  | destroy => exact hth.elim

/-- A thread that has destroyed nothing yet goes on so, unless it sets the flag. -/
theorem guarded (h : ThreadStep false free th pending' th') (hth : th.code.Guarded) :
    (pending' = false ∧ th'.code.Guarded) ∨
      (pending' = true ∧ ∃ next, th.code = .setDestructionPending next) := by
  cases h with
  | refuse h => cases h
  | check => exact .inl ⟨rfl, hth⟩
  | mutexFails => exact .inl ⟨rfl, hth false⟩
  | acquire => exact .inl ⟨rfl, hth⟩
  | release h => cases h
  | succeed => exact .inl ⟨rfl, hth true⟩
  | unlock => exact .inl ⟨rfl, hth⟩
  | setPending => exact .inr ⟨rfl, _, rfl⟩
  | destroy => exact hth.elim

end ThreadStep

/-- What holds in every run in which the flag is set only while the lock is free. -/
structure TeardownInvariant (s : Teardown ι) : Prop where
  clients : ∀ t, t ≠ .maintenance → (s.thread t).code.Client
  guarded : s.pending = false → (s.thread .maintenance).code.Guarded
  unheld : s.pending = true → ∀ t, t ≠ .maintenance → ¬ (s.thread t).Holds

namespace TeardownInvariant

variable {s : Teardown ι} {pending : Bool} {th : ThreadState}

theorem step_maintenance (hs : TeardownInvariant s) (hguard : FlagsWhenFree s .maintenance)
    (h : ThreadStep s.pending (s.Free .maintenance) (s.thread .maintenance) pending th) :
    TeardownInvariant (s.after .maintenance pending th) where
  clients t ht := by
    rw [s.after_of_ne ht]
    exact hs.clients t ht
  guarded hp := by
    change pending = false at hp
    subst hp
    cases hp : s.pending with
    | true =>
      rw [hp] at h
      exact absurd h.pending_stays (by simp)
    | false =>
      rw [hp] at h
      rcases h.guarded (hs.guarded hp) with ⟨-, hth⟩ | ⟨hp, -⟩
      · simpa using hth
      · cases hp
  unheld hp t ht := by
    change pending = true at hp
    subst hp
    rw [s.after_of_ne ht]
    cases hp : s.pending with
    | true => exact hs.unheld hp t ht
    | false =>
      -- the flag was set in this step
      rw [hp] at h
      rcases h.guarded (hs.guarded hp) with ⟨hp, -⟩ | ⟨-, next, hnext⟩
      · cases hp
      · exact hguard next hnext t ht

theorem step_other (hs : TeardownInvariant s) {t : SessionThread ι} (ht : t ≠ .maintenance)
    (h : ThreadStep s.pending (s.Free t) (s.thread t) pending th) :
    TeardownInvariant (s.after t pending th) := by
  obtain ⟨hth, rfl⟩ := h.client (hs.clients t ht)
  refine ⟨fun t' ht' => ?_, fun hp => ?_, fun hp t' ht' => ?_⟩
  · by_cases htt : t' = t
    · subst htt
      simpa using hth
    · rw [s.after_of_ne htt]
      exact hs.clients t' ht'
  · rw [s.after_of_ne (Ne.symm ht)]
    exact hs.guarded hp
  · change s.pending = true at hp
    by_cases htt : t' = t
    · subst htt
      rw [hp] at h
      rw [s.after_self]
      exact fun hheld => hs.unheld hp t' ht' (h.holds hheld)
    · rw [s.after_of_ne htt]
      exact hs.unheld hp t' ht'

theorem step {s' : Teardown ι} {t : SessionThread ι} (hs : TeardownInvariant s)
    (hguard : FlagsWhenFree s t) (h : (teardownSystem ι).next s t s') : TeardownInvariant s' := by
  obtain ⟨pending, th, hstep, rfl⟩ := h
  by_cases ht : t = .maintenance
  · subst ht
    exact hs.step_maintenance hguard hstep
  · exact hs.step_other ht hstep

end TeardownInvariant

theorem teardownInvariant_reachable {s : Teardown ι}
    (h : ((teardownSystem ι).restrict FlagsWhenFree).Reachable s) : TeardownInvariant s := by
  refine h.invariant ?_ fun s t s' _ hs hn => hs.step hn.1 hn.2
  rintro s ⟨codes, hcodes, rfl⟩
  exact ⟨fun t ht => (hcodes t).client ht, fun _ => (hcodes .maintenance).guarded, nofun⟩

omit [DecidableEq ι] in
theorem TeardownInvariant.not_holds {s : Teardown ι} (hs : TeardownInvariant s) {part : SessionPart}
    {next : Code} (hcode : (s.thread .maintenance).code = .destroy part next)
    {t : SessionThread ι} (ht : t ≠ .maintenance) : ¬ (s.thread t).Holds := by
  cases hp : s.pending with
  | true => exact hs.unheld hp t ht
  | false =>
    have hguarded := hs.guarded hp
    rw [hcode] at hguarded
    exact hguarded.elim

/-- **Destruction excludes the other threads.**  In every run in which the maintenance thread sets
`destruction_pending` only while no other thread holds the lock of the session, no other thread
holds it whenever `destroy_session` starts to destroy a part.  The code of these threads is what
`handle_request` and the message functions do with the lock of the session. -/
theorem destroySession_excludes_holders (μ : Type) {s : Teardown ι}
    (h : ((teardownSystem ι).restrict FlagsWhenFree).Reachable s) {part : SessionPart}
    {next : Code} (hcode : (s.thread .maintenance).code = .destroy part next)
    {t : SessionThread ι} (ht : t ≠ .maintenance) :
    ¬ (s.thread t).Holds ∧
      (∀ (cmds : Commands μ) (request : Request) (w : World μ),
        let os := ((Server.handleRequest cmds request).run w).ops.filter onSession
        os = [] ∨ ∃ body, body.Client ∧ (Code.handleRequest body).Trace os) ∧
      ∀ (call : ChannelCall) (id : ChannelId) (timestamp : ℤ) (message : Option (List UInt8))
        (w : World μ), ∃ c, MessageCode c ∧ c.Trace ((call.exec id timestamp message).run w).ops :=
  ⟨(teardownInvariant_reachable h).not_holds hcode ht,
    fun cmds request w => handleRequest_trace cmds request w,
    fun call id timestamp message w => channelCall_trace call id timestamp message w⟩

/-- One request is handled while the connection shuts down. -/
def closingCodes : SessionThread Unit → Code
  | .maintenance => .shutdownNetworkConnection true true true
  | .receive => .loop ([.done].map .handleRequest)
  | .callback _ => .loop []

theorem closingCodes_executes (t : SessionThread Unit) : Executes t (closingCodes t) := by
  cases t with
  | maintenance => exact .maintenance true true true
  | receive => exact .receive [.done] (by simp [Code.Client])
  | callback i => exact .callback i [] (by simp)

/-- The start of the run. -/
def closing : Teardown Unit := ⟨false, fun t => ⟨closingCodes t, .outside, 0⟩⟩

theorem closing_init : (teardownSystem Unit).init closing :=
  ⟨closingCodes, closingCodes_executes, rfl⟩

/-- The system goes on with a step of `t`. -/
theorem reachable_after {guard : Teardown ι → SessionThread ι → Prop} {s : Teardown ι}
    (h : ((teardownSystem ι).restrict guard).Reachable s) (t : SessionThread ι) (hguard : guard s t)
    {pending : Bool} {th : ThreadState}
    (hstep : ThreadStep s.pending (s.Free t) (s.thread t) pending th) :
    ((teardownSystem ι).restrict guard).Reachable (s.after t pending th) :=
  h.step t ⟨hguard, _, _, hstep, rfl⟩

/-- The connection shuts down while the receive thread is inside `lock_session`: it has locked the
mutex and will find the flag set. -/
theorem destroySession_excludes_holders_closing :
    ∃ s : Teardown Unit, ((teardownSystem Unit).restrict FlagsWhenFree).Reachable s ∧
      (∃ next, (s.thread .maintenance).code = .destroy .commandConfigs next) ∧
      (s.thread .receive).depth = 1 ∧ ¬ (s.thread .receive).Holds := by
  have start : ((teardownSystem Unit).restrict FlagsWhenFree).Reachable closing :=
    .start closing_init
  have checked := reachable_after start .receive nofun (.check rfl)
  have flagged := reachable_after checked .maintenance (fun _ _ t _ => by cases t <;> nofun)
    .setPending
  have refused := reachable_after flagged .maintenance nofun (.refuse rfl)
  have acquired := reachable_after refused .receive nofun (.acquire ?free)
  · exact ⟨_, acquired, ⟨_, rfl⟩, rfl,
      (destroySession_excludes_holders Unit (t := .receive) acquired rfl (by decide)).1⟩
  · rintro (_ | _ | _) ht
    · rfl
    · exact absurd rfl ht
    · rfl

/-- A request is being handled when the connection shuts down: `destroy_session` does not wait for
it. -/
theorem destroySession_with_holder :
    ∃ s : Teardown Unit, (teardownSystem Unit).Reachable s ∧
      (∃ next, (s.thread .maintenance).code = .destroy .commandConfigs next) ∧
      (s.thread .receive).Holds := by
  have start : ((teardownSystem Unit).restrict fun _ _ => True).Reachable closing :=
    .start closing_init
  have checked := reachable_after start .receive trivial (.check rfl)
  have acquired := reachable_after checked .receive trivial (.acquire ?free)
  · have locked := reachable_after acquired .receive trivial (.succeed rfl)
    have flagged := reachable_after locked .maintenance trivial .setPending
    have refused := reachable_after flagged .maintenance trivial (.refuse rfl)
    exact ⟨_, refused.of_restrict, ⟨_, rfl⟩, Nat.one_pos⟩
  · rintro (_ | _ | _) ht
    · rfl
    · exact absurd rfl ht
    · rfl

end XprcServer
