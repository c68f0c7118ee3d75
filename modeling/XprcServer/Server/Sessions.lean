import XprcServer.Lib.System
import XprcServer.Lists.Linked

/-!
# The sessions of a server

`new_connection` appends its session to the list `sessions` of the server, `on_connection_closing`
takes it out and destroys it, and `maintain_server` walks through the list; they run in different
threads.  The mutex of the server is held for each access of the list, and by `maintain_server` for
a whole pass.

Each call is a thread of its own here and moves by the statements that others can see.

* `maintainServer_visits` : as long as a session is appended before its connection closes and no
  session is destroyed in the list, a pass visits every session once, and only live ones;
* `maintainServer_visits_destroyed` : otherwise it may visit a session that was freed.
-/

namespace XprcServer

open Lib

namespace SessionList

/-- How far `new_connection` has got with a session -/
inductive Opening where
  /-- it is not running -/
  | idle
  /-- `create_session` has returned -/
  | created
  /-- `register_session` has locked the mutex -/
  | registering
  /-- `list_append` has returned -/
  | registered
  deriving DecidableEq, Repr

/-- How far `on_connection_closing` has got with a session -/
inductive Closing where
  /-- it is not running -/
  | idle
  /-- `unregister_session` is about to lock the mutex -/
  | unregistering
  /-- the mutex is locked -/
  | searching
  /-- the session is not in the list, and the mutex still locked -/
  | unregistered
  /-- `destroy_session` is running -/
  | destroying
  deriving DecidableEq, Repr

/-- Who holds the mutex of the server -/
inductive Holder where
  | newConnection (session : ℕ)
  | onConnectionClosing (session : ℕ)
  | maintainServer
  deriving DecidableEq, Repr

/-- Where `maintain_server` is -/
inductive Pass where
  /-- it is not running -/
  | idle
  /-- before the test of the loop, with `item` -/
  | item (item : Option ℕ)
  /-- in the body of the loop, with `session` and `next_item` -/
  | visiting (session : ℕ) (nextItem : Option ℕ)
  deriving DecidableEq, Repr

/-- The sessions of a server, by their addresses, and the threads that work with the list of them -/
structure State where
  sessions : LinkedList
  heap : ListHeap ℕ
  mutex : Option Holder
  /-- memory of sessions that is not free -/
  allocated : ℕ → Bool
  opening : ℕ → Opening
  closing : ℕ → Closing
  pass : Pass
  /-- `out_err` is not `ERROR_NONE`. -/
  outErr : Bool
  /-- the sessions this pass has visited -/
  visited : List ℕ
  /-- the steps this pass has taken in the loop -/
  rounds : ℕ

inductive Action where
  /-- `create_session` succeeds; the network server can now refer to the session. -/
  | createSession (session : ℕ)
  | registerLock (session : ℕ)
  /-- `mtx_lock` fails in `register_session`. -/
  | registerFails (session : ℕ)
  /-- `list_append`, with what `zmalloc` returns -/
  | listAppend (session : ℕ) (alloc : Option ℕ)
  | registerUnlock (session : ℕ)
  /-- The connection closes, at any time since there is a session. -/
  | connectionClosing (session : ℕ)
  | unregisterLock (session : ℕ)
  /-- `mtx_lock` fails in `unregister_session`. -/
  | unregisterFails (session : ℕ)
  /-- `list_find`, and `list_delete_item` if the session was found -/
  | listDelete (session : ℕ)
  | unregisterUnlock (session : ℕ)
  /-- The session is freed, and the network server clears its reference. -/
  | destroySession (session : ℕ)
  | maintainLock
  /-- `next_item` and `session` are read. -/
  | enter
  /-- `lock_session` was called, and if it succeeded `destroy_pending_channels`.  Commands may ask
  for the connection to be closed, but it is the network server that closes it. -/
  | leave (locked : Bool)
  | maintainUnlock
  deriving DecidableEq, Repr

/-- The steps of `maintain_server` -/
def Action.OfMaintainServer : Action → Prop
  | .maintainLock | .enter | .leave _ | .maintainUnlock => True
  | _ => False

namespace State

/-- No session yet -/
def empty : State where
  sessions := createList
  heap _ := none
  mutex := none
  allocated _ := false
  opening _ := .idle
  closing _ := .idle
  pass := .idle
  outErr := false
  visited := []
  rounds := 0

variable (σ : State)

def setOpening (session : ℕ) (phase : Opening) : State :=
  { σ with opening := Function.update σ.opening session phase }

def setClosing (session : ℕ) (phase : Closing) : State :=
  { σ with closing := Function.update σ.closing session phase }

/-- The sessions in the list -/
def registered : List ℕ := σ.sessions.values σ.heap

/-- Registered, and not being destroyed by its closing handler -/
def Alive (session : ℕ) : Prop :=
  session ∈ σ.registered ∧ σ.allocated session = true ∧
    (σ.closing session = .idle ∨ σ.closing session = .unregistering)

/-- One step; `none` if it is not possible in this state. -/
def exec : Action → Option State
  | .createSession session =>
    if σ.allocated session = false ∧ σ.opening session = .idle ∧ σ.closing session = .idle then
      some { σ.setOpening session .created with
        allocated := Function.update σ.allocated session true }
    else none
  | .registerLock session =>
    if σ.opening session = .created ∧ σ.mutex = none then
      some { σ.setOpening session .registering with mutex := some (.newConnection session) }
    else none
  | .registerFails session =>
    if σ.opening session = .created then some (σ.setOpening session .idle) else none
  | .listAppend session alloc =>
    if σ.opening session = .registering ∧ alloc.bind σ.heap = none then do
      let (_, sessions, heap) ← σ.sessions.append σ.heap alloc session
      return { σ.setOpening session .registered with sessions, heap }
    else none
  | .registerUnlock session =>
    if σ.opening session = .registered then
      some { σ.setOpening session .idle with mutex := none }
    else none
  | .connectionClosing session =>
    if σ.allocated session = true ∧ σ.closing session = .idle then
      some (σ.setClosing session .unregistering)
    else none
  | .unregisterLock session =>
    if σ.closing session = .unregistering ∧ σ.mutex = none then
      some { σ.setClosing session .searching with mutex := some (.onConnectionClosing session) }
    else none
  | .unregisterFails session =>
    if σ.closing session = .unregistering then some (σ.setClosing session .destroying) else none
  | .listDelete session =>
    if σ.closing session = .searching then do
      match ← σ.sessions.find σ.heap σ.sessions.size.toNat session with
      | none => return σ.setClosing session .unregistered
      | some item =>
        let (sessions, heap) ← σ.sessions.deleteItem σ.heap item
        return { σ.setClosing session .unregistered with sessions, heap }
    else none
  | .unregisterUnlock session =>
    if σ.closing session = .unregistered then
      some { σ.setClosing session .destroying with mutex := none }
    else none
  | .destroySession session =>
    if σ.closing session = .destroying then
      some { σ.setClosing session .idle with
        allocated := Function.update σ.allocated session false }
    else none
  | .maintainLock =>
    if σ.pass = .idle ∧ σ.mutex = none then
      some { σ with mutex := some .maintainServer, pass := .item σ.sessions.head, outErr := false,
                    visited := [], rounds := 0 }
    else none
  | .enter =>
    match σ.pass with
    | .item (some item) => do
      let cell ← σ.heap item
      return { σ with pass := .visiting cell.value cell.next, visited := σ.visited ++ [cell.value],
                      rounds := σ.rounds + 1 }
    | _ => none
  | .leave locked =>
    match σ.pass with
    | .visiting _ nextItem =>
      some { σ with pass := .item nextItem, outErr := σ.outErr || !locked, rounds := σ.rounds + 1 }
    | _ => none
  | .maintainUnlock =>
    if σ.pass = .item none then some { σ with pass := .idle, mutex := none } else none

end State

/-- The threads of a server, in any order of their steps -/
def serverSessions : System State Action := .ofExec .empty State.exec

/-- A session is appended as long as it is not taken out again, and not left in the list by a
failure of the mutex. -/
def Orderly (σ : State) : Action → Prop
  | .listAppend session _ => σ.allocated session = true ∧
      (σ.closing session = .idle ∨ σ.closing session = .unregistering)
  | .unregisterFails session => session ∉ σ.registered
  | _ => True

instance (σ : State) : DecidablePred (Orderly σ)
  | .listAppend session _ => inferInstanceAs (Decidable (σ.allocated session = true ∧
      (σ.closing session = .idle ∨ σ.closing session = .unregistering)))
  | .unregisterFails session => inferInstanceAs (Decidable (session ∉ σ.registered))
  | .createSession _ | .registerLock _ | .registerFails _ | .registerUnlock _
  | .connectionClosing _ | .unregisterLock _ | .listDelete _ | .unregisterUnlock _
  | .destroySession _ | .maintainLock | .enter | .leave _ | .maintainUnlock => .isTrue trivial

/-! ### The invariant -/

/-- A pass has visited the items before `item`, or up to the one with `session`. -/
def Walked (items : List (ℕ × ℕ)) (visited : List ℕ) (rounds : ℕ) : Pass → Prop
  | .idle => True
  | .item item => ∃ before behind, items = before ++ behind ∧
      item = (behind.map Prod.fst).head? ∧ visited = before.map Prod.snd ∧
      rounds = 2 * before.length
  | .visiting session nextItem => ∃ before item behind, items = before ++
      (item, session) :: behind ∧
      nextItem = (behind.map Prod.fst).head? ∧ visited = before.map Prod.snd ++ [session] ∧
      rounds = 2 * before.length + 1

/-- The list has these items, and the threads are where the list and the mutex allow it. -/
structure State.Tracks (σ : State) (items : List (ℕ × ℕ)) : Prop where
  holds : σ.sessions.Holds σ.heap items
  nodup : (items.map Prod.snd).Nodup
  alive : ∀ s ∈ items.map Prod.snd, σ.allocated s = true ∧
    (σ.closing s = .idle ∨ σ.closing s = .unregistering ∨ σ.closing s = .searching)
  pending : ∀ s, σ.opening s = .created ∨ σ.opening s = .registering → s ∉ items.map Prod.snd
  opening : ∀ s, σ.opening s = .registering ∨ σ.opening s = .registered →
    σ.mutex = some (.newConnection s)
  closing : ∀ s, σ.closing s = .searching ∨ σ.closing s = .unregistered →
    σ.mutex = some (.onConnectionClosing s)
  passing : σ.pass ≠ .idle → σ.mutex = some .maintainServer
  walked : Walked items σ.visited σ.rounds σ.pass

variable {σ σ' : State} {items : List (ℕ × ℕ)}

theorem State.Tracks.registered_eq (h : σ.Tracks items) : σ.registered = items.map Prod.snd :=
  h.holds.values_eq

theorem tracks_empty : State.empty.Tracks [] where
  holds := LinkedList.holds_createList _
  nodup := List.nodup_nil
  alive _ h := nomatch h
  pending _ _ h := nomatch h
  opening _ h := nomatch h
  closing _ h := nomatch h
  passing h := absurd rfl h
  walked := trivial

/-- Whoever else holds the mutex, no pass is under way. -/
theorem State.Tracks.idle (h : σ.Tracks items) {holder : Holder} (hmutex : σ.mutex = some holder)
    (hne : holder ≠ .maintainServer) : σ.pass = .idle := by
  by_contra hpass
  rw [h.passing hpass] at hmutex
  exact hne (Option.some.inj hmutex).symm

/-- `list_append` puts a session of `new_connection` behind the others. -/
theorem State.Tracks.listAppend (h : σ.Tracks items) {session : ℕ} {alloc : Option ℕ}
    (hguard : Orderly σ (.listAppend session alloc))
    (hexec : σ.exec (.listAppend session alloc) = some σ') : ∃ items', σ'.Tracks items' := by
  simp only [State.exec, Option.ite_none_right_eq_some] at hexec
  obtain ⟨⟨hopen, hfresh⟩, happend⟩ := hexec
  have hidle := h.idle (h.opening session (.inl hopen)) (by simp)
  have hunlisted := h.pending session (.inr hopen)
  obtain ⟨hallocated, hclose⟩ := hguard
  cases alloc with
  | none =>
    obtain rfl := Option.some.inj happend
    obtain ⟨hholds, hnodup, halive, hpending, hopening, hclosing, hpassing, hwalked⟩ := h
    refine ⟨items, hholds, hnodup, halive, ?_, ?_, hclosing, hpassing, hwalked⟩ <;>
      simp only [State.setOpening] <;> grind
  | some item =>
    obtain ⟨sessions, heap, heq, hholds⟩ := h.holds.append hfresh session
    rw [heq] at happend
    obtain rfl := Option.some.inj happend
    have hitems : (items ++ [(item, session)]).map Prod.snd = items.map Prod.snd ++ [session] := by
      rw [List.map_append, List.map_singleton]
    refine ⟨items ++ [(item, session)], hholds, ?_, ?_, ?_, ?_, h.closing, h.passing, ?_⟩
    · rw [hitems]
      exact List.nodup_append.2 ⟨h.nodup, by simp, by grind⟩
    · have halive := h.alive
      simp only [State.setOpening, hitems]
      grind
    · have hpending := h.pending
      simp only [State.setOpening, hitems]
      grind
    · have hopening := h.opening
      simp only [State.setOpening]
      grind
    · simp only [State.setOpening, hidle]
      trivial

/-- `unregister_session` takes the session out if it is in the list. -/
theorem State.Tracks.listDelete (h : σ.Tracks items) {session : ℕ}
    (hexec : σ.exec (.listDelete session) = some σ') : ∃ items', σ'.Tracks items' := by
  simp only [State.exec, Option.ite_none_right_eq_some] at hexec
  obtain ⟨hclose, hdelete⟩ := hexec
  have hidle := h.idle (h.closing session (.inl hclose)) (by simp)
  rw [h.holds.find session, Option.bind_eq_bind, Option.bind_some] at hdelete
  cases hfind : items.find? fun e => e.2 = session with
  | none =>
    rw [hfind] at hdelete
    obtain rfl := Option.some.inj hdelete
    have hunlisted : session ∉ items.map Prod.snd := fun hmem => by
      obtain ⟨e, he, heq⟩ := List.mem_map.1 hmem
      exact List.find?_eq_none.1 hfind e he (decide_eq_true heq)
    obtain ⟨hholds, hnodup, halive, hpending, hopening, hclosing, hpassing, hwalked⟩ := h
    refine ⟨items, hholds, hnodup, ?_, hpending, hopening, ?_, hpassing, hwalked⟩ <;>
      simp only [State.setClosing] <;> grind
  | some e =>
    obtain ⟨item, value⟩ := e
    have hvalue : value = session := by simpa using List.find?_some hfind
    subst hvalue
    obtain ⟨before, behind, rfl⟩ := List.append_of_mem (List.mem_of_find?_eq_some hfind)
    obtain ⟨sessions, heap, heq, hholds⟩ := h.holds.deleteItem
    rw [hfind, Option.map_some] at hdelete
    dsimp only at hdelete
    rw [heq] at hdelete
    obtain rfl := Option.some.inj hdelete
    obtain ⟨-, hnodup, halive, hpending, hopening, hclosing, hpassing, -⟩ := h
    -- as no session is listed twice, this one is not there any more
    rw [List.map_append, List.map_cons, List.perm_middle.nodup_iff, List.nodup_cons,
      ← List.map_append] at hnodup
    have hold : ∀ s ∈ (before ++ behind).map Prod.snd,
        s ≠ value ∧ s ∈ (before ++ (item, value) :: behind).map Prod.snd := fun s hs => by
      refine ⟨fun heq => hnodup.1 (heq ▸ hs), ?_⟩
      obtain ⟨e, he, rfl⟩ := List.mem_map.1 hs
      refine List.mem_map_of_mem ?_
      rw [List.mem_append, List.mem_cons]
      exact (List.mem_append.1 he).imp_right .inr
    refine ⟨before ++ behind, hholds, hnodup.2, fun s hs => ?_,
      fun s hs hmem => hpending s hs (hold s hmem).2, hopening, ?_, hpassing, ?_⟩
    · obtain ⟨hne, hmem⟩ := hold s hs
      simp only [State.setClosing, Function.update_of_ne hne]
      exact halive s hmem
    · simp only [State.setClosing]
      grind
    · simp only [State.setClosing, hidle]
      trivial

/-- `maintain_server` locks the mutex, and begins with the first item. -/
theorem State.Tracks.maintainLock (h : σ.Tracks items) (hexec : σ.exec .maintainLock = some σ') :
    σ'.Tracks items := by
  simp only [State.exec, Option.ite_none_right_eq_some, Option.some.injEq] at hexec
  obtain ⟨⟨-, hmutex⟩, rfl⟩ := hexec
  obtain ⟨hholds, hnodup, halive, hpending, hopening, hclosing, -, -⟩ := h
  refine ⟨hholds, hnodup, halive, hpending, ?_, ?_, fun _ => rfl, [], items, rfl, ?_, rfl, rfl⟩
  · grind
  · grind
  · exact hholds.links.forward.eq_head

theorem State.Tracks.enter (h : σ.Tracks items) (hexec : σ.exec .enter = some σ') :
    σ'.Tracks items := by
  rw [State.exec] at hexec
  split at hexec
  case h_2 => cases hexec
  case h_1 item hpass =>
    have hwalked := h.walked
    rw [hpass] at hwalked
    obtain ⟨before, behind, rfl, hitem, hvisited, hrounds⟩ := hwalked
    cases behind with
    | nil => cases hitem
    | cons e behind =>
      obtain ⟨item', session⟩ := e
      obtain rfl : item = item' := Option.some.inj hitem
      have hcell := h.holds.cell_eq
      rw [hcell] at hexec
      obtain rfl := Option.some.inj hexec
      refine { h with passing := fun _ => h.passing (by rw [hpass]; simp), walked := ?_ }
      exact ⟨before, item, behind, rfl, rfl, by rw [hvisited], by rw [hrounds]⟩

/-- `next_item` is still the item behind the one that was visited. -/
theorem State.Tracks.leave (h : σ.Tracks items) {locked : Bool}
    (hexec : σ.exec (.leave locked) = some σ') : σ'.Tracks items := by
  rw [State.exec] at hexec
  split at hexec
  case h_2 => cases hexec
  case h_1 session nextItem hpass =>
    obtain rfl := Option.some.inj hexec
    have hwalked := h.walked
    rw [hpass] at hwalked
    obtain ⟨before, item, behind, rfl, hnext, hvisited, hrounds⟩ := hwalked
    refine { h with passing := fun _ => h.passing (by rw [hpass]; simp), walked := ?_ }
    refine ⟨before ++ [(item, session)], behind, by simp, hnext, ?_, ?_⟩
    · rw [hvisited, List.map_append, List.map_singleton]
    · rw [List.length_append, List.length_singleton]
      dsimp only
      omega

theorem State.Tracks.maintainUnlock (h : σ.Tracks items)
    (hexec : σ.exec .maintainUnlock = some σ') : σ'.Tracks items := by
  simp only [State.exec, Option.ite_none_right_eq_some, Option.some.injEq] at hexec
  obtain ⟨hpass, rfl⟩ := hexec
  have hmutex := h.passing (by rw [hpass]; simp)
  obtain ⟨hholds, hnodup, halive, hpending, hopening, hclosing, -, -⟩ := h
  refine ⟨hholds, hnodup, halive, hpending, ?_, ?_, fun hne => absurd rfl hne, trivial⟩
  · grind
  · grind

/-- Every step keeps the invariant; only two of them change the items. -/
theorem State.Tracks.step (h : σ.Tracks items) {a : Action} (hguard : Orderly σ a)
    (hexec : σ.exec a = some σ') : ∃ items', σ'.Tracks items' := by
  have hregistered := h.registered_eq
  have ⟨hholds, hnodup, halive, hpending, hopening, hclosing, hpassing, hwalked⟩ := h
  cases a with
  | createSession session =>
    simp only [State.exec, Option.ite_none_right_eq_some, Option.some.injEq] at hexec
    obtain ⟨⟨hfree, hopen, hclose⟩, rfl⟩ := hexec
    -- what is in the list is allocated, so a new session is not in it
    refine ⟨items, hholds, hnodup, ?_, ?_, ?_, hclosing, hpassing, hwalked⟩ <;>
      simp only [State.setOpening] <;> grind
  | registerLock session =>
    simp only [State.exec, Option.ite_none_right_eq_some, Option.some.injEq] at hexec
    obtain ⟨⟨hopen, hmutex⟩, rfl⟩ := hexec
    refine ⟨items, hholds, hnodup, halive, ?_, ?_, ?_, ?_, hwalked⟩ <;>
      simp only [State.setOpening] <;> grind
  | registerFails session =>
    simp only [State.exec, Option.ite_none_right_eq_some, Option.some.injEq] at hexec
    obtain ⟨hopen, rfl⟩ := hexec
    refine ⟨items, hholds, hnodup, halive, ?_, ?_, hclosing, hpassing, hwalked⟩ <;>
      simp only [State.setOpening] <;> grind
  | listAppend session alloc => exact h.listAppend hguard hexec
  | registerUnlock session =>
    simp only [State.exec, Option.ite_none_right_eq_some, Option.some.injEq] at hexec
    obtain ⟨hopen, rfl⟩ := hexec
    refine ⟨items, hholds, hnodup, halive, ?_, ?_, ?_, ?_, hwalked⟩ <;>
      simp only [State.setOpening] <;> grind
  | connectionClosing session =>
    simp only [State.exec, Option.ite_none_right_eq_some, Option.some.injEq] at hexec
    obtain ⟨⟨hlive, hclose⟩, rfl⟩ := hexec
    refine ⟨items, hholds, hnodup, ?_, hpending, hopening, ?_, hpassing, hwalked⟩ <;>
      simp only [State.setClosing] <;> grind
  | unregisterLock session =>
    simp only [State.exec, Option.ite_none_right_eq_some, Option.some.injEq] at hexec
    obtain ⟨⟨hclose, hmutex⟩, rfl⟩ := hexec
    refine ⟨items, hholds, hnodup, ?_, hpending, ?_, ?_, ?_, hwalked⟩ <;>
      simp only [State.setClosing] <;> grind
  | unregisterFails session =>
    simp only [State.exec, Option.ite_none_right_eq_some, Option.some.injEq] at hexec
    obtain ⟨hclose, rfl⟩ := hexec
    -- this is where the session must not be in the list
    simp only [Orderly] at hguard
    refine ⟨items, hholds, hnodup, ?_, hpending, hopening, ?_, hpassing, hwalked⟩ <;>
      simp only [State.setClosing] <;> grind
  | listDelete session => exact h.listDelete hexec
  | unregisterUnlock session =>
    simp only [State.exec, Option.ite_none_right_eq_some, Option.some.injEq] at hexec
    obtain ⟨hclose, rfl⟩ := hexec
    refine ⟨items, hholds, hnodup, ?_, hpending, ?_, ?_, ?_, hwalked⟩ <;>
      simp only [State.setClosing] <;> grind
  | destroySession session =>
    simp only [State.exec, Option.ite_none_right_eq_some, Option.some.injEq] at hexec
    obtain ⟨hclose, rfl⟩ := hexec
    -- a session that is being destroyed is not alive, so it is not in the list
    refine ⟨items, hholds, hnodup, ?_, hpending, hopening, ?_, hpassing, hwalked⟩ <;>
      simp only [State.setClosing] <;> grind
  | maintainLock => exact ⟨items, h.maintainLock hexec⟩
  | enter => exact ⟨items, h.enter hexec⟩
  | leave locked => exact ⟨items, h.leave hexec⟩
  | maintainUnlock => exact ⟨items, h.maintainUnlock hexec⟩

theorem serverSessions_tracks (h : (serverSessions.restrict Orderly).Reachable σ) :
    ∃ items, σ.Tracks items := by
  have hstart : ∀ σ : State, serverSessions.init σ → ∃ items, σ.Tracks items := by
    rintro σ rfl
    exact ⟨[], tracks_empty⟩
  refine h.invariant hstart fun σ a σ' _ hσ hnext => ?_
  obtain ⟨items, hitems⟩ := hσ
  exact hitems.step hnext.1 hnext.2

/-! ### What a pass visits -/

/-- Steps of other threads do not change where a pass is, or what it has done. -/
theorem State.exec_pass {a : Action} (ha : ¬ a.OfMaintainServer) (hexec : σ.exec a = some σ') :
    σ'.pass = σ.pass ∧ σ'.visited = σ.visited ∧ σ'.rounds = σ.rounds := by
  cases a with
  | maintainLock => exact absurd trivial ha
  | enter => exact absurd trivial ha
  | leave locked => exact absurd trivial ha
  | maintainUnlock => exact absurd trivial ha
  | listAppend session alloc =>
    simp only [State.exec, Option.ite_none_right_eq_some] at hexec
    obtain ⟨⟨_, sessions, heap⟩, -, hσ'⟩ := Option.bind_eq_some_iff.1 hexec.2
    obtain rfl := Option.some.inj hσ'
    exact ⟨rfl, rfl, rfl⟩
  | listDelete session =>
    simp only [State.exec, Option.ite_none_right_eq_some] at hexec
    obtain ⟨found, -, hdelete⟩ := Option.bind_eq_some_iff.1 hexec.2
    cases found with
    | none =>
      obtain rfl := Option.some.inj hdelete
      exact ⟨rfl, rfl, rfl⟩
    | some item =>
      obtain ⟨⟨sessions, heap⟩, -, hσ'⟩ := Option.bind_eq_some_iff.1 hdelete
      obtain rfl := Option.some.inj hσ'
      exact ⟨rfl, rfl, rfl⟩
  | _ =>
    simp only [State.exec, Option.ite_none_right_eq_some, Option.some.injEq] at hexec
    obtain ⟨-, rfl⟩ := hexec
    exact ⟨rfl, rfl, rfl⟩

/-- During a pass, no step changes the list. -/
theorem State.Tracks.exec_registered (h : σ.Tracks items) (hpass : σ.pass ≠ .idle) {a : Action}
    (hexec : σ.exec a = some σ') : σ'.registered = σ.registered := by
  have hmutex := h.passing hpass
  cases a with
  | listAppend session alloc =>
    simp only [State.exec, Option.ite_none_right_eq_some] at hexec
    exact absurd (h.idle (h.opening session (.inl hexec.1.1)) (by simp)) hpass
  | listDelete session =>
    simp only [State.exec, Option.ite_none_right_eq_some] at hexec
    exact absurd (h.idle (h.closing session (.inl hexec.1)) (by simp)) hpass
  | enter =>
    rw [State.exec] at hexec
    split at hexec
    case h_2 => cases hexec
    case h_1 item _ =>
      obtain ⟨cell, -, hσ'⟩ := Option.bind_eq_some_iff.1 hexec
      obtain rfl := Option.some.inj hσ'
      rfl
  | leave locked =>
    rw [State.exec] at hexec
    split at hexec
    case h_2 => cases hexec
    case h_1 =>
      obtain rfl := Option.some.inj hexec
      rfl
  | _ =>
    simp only [State.exec, Option.ite_none_right_eq_some, Option.some.injEq] at hexec
    obtain ⟨-, rfl⟩ := hexec
    rfl

/-- The items are all in memory, so `maintain_server` finds the next one. -/
theorem State.Tracks.progress (h : σ.Tracks items) (hpass : σ.pass ≠ .idle) :
    ∃ a σ', a.OfMaintainServer ∧ Orderly σ a ∧ σ.exec a = some σ' := by
  have hwalked := h.walked
  cases hphase : σ.pass with
  | idle => exact absurd hphase hpass
  | visiting session nextItem =>
    exact ⟨.leave true, _, trivial, trivial, by rw [State.exec, hphase]⟩
  | item item =>
    rw [hphase] at hwalked
    obtain ⟨before, behind, rfl, rfl, -, -⟩ := hwalked
    cases behind with
    | nil => exact ⟨.maintainUnlock, _, trivial, trivial, by rw [State.exec, hphase]; rfl⟩
    | cons e behind =>
      have henter : (σ.exec .enter).isSome := by
        simp [State.exec, hphase, h.holds.cell_eq]
      obtain ⟨σ', hσ'⟩ := Option.isSome_iff_exists.1 henter
      exact ⟨.enter, σ', trivial, trivial, hσ'⟩

theorem State.exec_rounds {a : Action} (ha : a.OfMaintainServer) (hpass : σ.pass ≠ .idle)
    (hexec : σ.exec a = some σ') : σ'.pass = .idle ∨ σ'.rounds = σ.rounds + 1 := by
  cases a with
  | maintainLock =>
    simp only [State.exec, Option.ite_none_right_eq_some] at hexec
    exact absurd hexec.1.1 hpass
  | enter =>
    rw [State.exec] at hexec
    split at hexec
    case h_2 => cases hexec
    case h_1 =>
      obtain ⟨cell, -, hσ'⟩ := Option.bind_eq_some_iff.1 hexec
      obtain rfl := Option.some.inj hσ'
      exact .inr rfl
  | leave locked =>
    rw [State.exec] at hexec
    split at hexec
    case h_2 => cases hexec
    case h_1 =>
      obtain rfl := Option.some.inj hexec
      exact .inr rfl
  | maintainUnlock =>
    simp only [State.exec, Option.ite_none_right_eq_some, Option.some.injEq] at hexec
    obtain ⟨-, rfl⟩ := hexec
    exact .inl rfl
  | _ => exact ha.elim

/-- What `maintain_server` may rely on -/
structure State.Visits (σ : State) : Prop where
  /-- A session is alive for the whole time it is visited. -/
  alive : ∀ session nextItem, σ.pass = .visiting session nextItem → σ.Alive session
  /-- At the end of the loop, each session of the list was visited once, and no other one. -/
  once : σ.pass = .item none →
    ∀ session, σ.visited.count session = if session ∈ σ.registered then 1 else 0
  /-- The list is the same for the whole pass. -/
  kept : ∀ a σ', σ.exec a = some σ' → σ.pass ≠ .idle → σ'.registered = σ.registered
  /-- The pass can always go on. -/
  progress : σ.pass ≠ .idle → ∃ a σ', a.OfMaintainServer ∧ Orderly σ a ∧ σ.exec a = some σ'
  /-- Only its own steps get it on. -/
  own : ∀ a σ', ¬ a.OfMaintainServer → σ.exec a = some σ' →
    σ'.pass = σ.pass ∧ σ'.visited = σ.visited ∧ σ'.rounds = σ.rounds
  /-- Its steps are counted until it ends. -/
  counted : ∀ a σ', a.OfMaintainServer → σ.pass ≠ .idle → σ.exec a = some σ' →
    σ'.pass = .idle ∨ σ'.rounds = σ.rounds + 1
  bounded : σ.pass ≠ .idle → σ.rounds ≤ 2 * σ.registered.length

theorem State.Tracks.visits (h : σ.Tracks items) : σ.Visits where
  alive session nextItem hpass := by
    have hwalked := h.walked
    rw [hpass] at hwalked
    obtain ⟨before, item, behind, rfl, -⟩ := hwalked
    have hmem : session ∈ (before ++ (item, session) :: behind).map Prod.snd :=
      List.mem_map_of_mem (List.mem_append_right _ List.mem_cons_self)
    obtain ⟨hallocated, hclosing⟩ := h.alive session hmem
    refine ⟨h.registered_eq ▸ hmem, hallocated, ?_⟩
    -- `unregister_session` cannot be in the list, as the mutex is held for the whole pass
    obtain hidle | hwaits | hsearching := hclosing
    · exact .inl hidle
    · exact .inr hwaits
    · exact absurd (h.idle (h.closing session (.inl hsearching)) (by simp)) (by rw [hpass]; simp)
  once hpass session := by
    have hwalked := h.walked
    rw [hpass] at hwalked
    obtain ⟨before, behind, rfl, hitem, hvisited, -⟩ := hwalked
    obtain rfl : behind = [] := by simpa using hitem.symm
    rw [List.append_nil] at h
    rw [hvisited, h.registered_eq]
    exact List.Nodup.count h.nodup
  kept a σ' hexec hpass := h.exec_registered hpass hexec
  progress := h.progress
  own a σ' ha hexec := State.exec_pass ha hexec
  counted a σ' ha hpass hexec := State.exec_rounds ha hpass hexec
  bounded hpass := by
    have hwalked := h.walked
    rw [h.registered_eq, List.length_map]
    cases hphase : σ.pass with
    | idle => exact absurd hphase hpass
    | item item =>
      rw [hphase] at hwalked
      obtain ⟨before, behind, rfl, -, -, hrounds⟩ := hwalked
      rw [hrounds, List.length_append]
      omega
    | visiting session nextItem =>
      rw [hphase] at hwalked
      obtain ⟨before, item, behind, rfl, -, -, hrounds⟩ := hwalked
      rw [hrounds, List.length_append, List.length_cons]
      omega

/-- **As long as a session is appended before it is taken out, and none is destroyed in the list, a
pass of `maintain_server` visits only live sessions, each of them once, and ends.** -/
theorem maintainServer_visits (h : (serverSessions.restrict Orderly).Reachable σ) : σ.Visits := by
  obtain ⟨items, hitems⟩ := serverSessions_tracks h
  exact hitems.visits

/-- `new_connection` from `create_session` to the end of `register_session` -/
def newConnection (session item : ℕ) : List Action :=
  [.createSession session, .registerLock session, .listAppend session (some item),
    .registerUnlock session]

/-- `on_connection_closing` -/
def onConnectionClosing (session : ℕ) : List Action :=
  [.connectionClosing session, .unregisterLock session, .listDelete session,
    .unregisterUnlock session, .destroySession session]

/-- Sessions come and go, and the next pass visits the two that are left; one of them is closing. -/
theorem maintainServer_visits_two : ∃ σ : State, σ.Visits ∧ σ.pass = .visiting 9 (some 0) ∧
    σ.registered = [9, 11] ∧ σ.closing 9 = .unregistering := by
  have hrun : ((System.run State.exec Orderly .empty (newConnection 7 0 ++ newConnection 9 1 ++
      onConnectionClosing 7 ++ newConnection 11 0 ++
      [.maintainLock, .connectionClosing 9, .enter])).map fun σ =>
      (σ.pass, σ.registered, σ.closing 9)) = some (.visiting 9 (some 0), [9, 11],
      .unregistering) := by
    decide +kernel
  obtain ⟨σ, hσ, heq⟩ := Option.map_eq_some_iff.1 hrun
  simp only [Prod.mk.injEq] at heq
  exact ⟨σ, maintainServer_visits (System.reachable_run (.start rfl) hσ), heq⟩

/-- What goes wrong otherwise: a connection closes while `new_connection` is running, and its
session is destroyed, then appended, and then visited; or the mutex fails in `unregister_session`,
and the session is visited while it is destroyed. -/
theorem maintainServer_visits_destroyed :
    (∃ σ, serverSessions.Reachable σ ∧ σ.pass = .visiting 7 none ∧ σ.allocated 7 = false) ∧
    ∃ σ, serverSessions.Reachable σ ∧ σ.pass = .visiting 7 none ∧ σ.closing 7 = .destroying := by
  have hreachable : ∀ acts σ, System.run State.exec (fun _ _ => True) .empty acts = some σ →
      serverSessions.Reachable σ :=
    fun acts σ hrun => (System.reachable_run (.start rfl) hrun).of_restrict
  refine ⟨?_, ?_⟩
  · have hrun : ((System.run State.exec (fun _ _ => True) .empty ([.createSession 7] ++
        onConnectionClosing 7 ++ [.registerLock 7, .listAppend 7 (some 0), .registerUnlock 7,
        .maintainLock, .enter])).map fun σ => (σ.pass, σ.allocated 7)) =
        some (.visiting 7 none, false) := by
      decide +kernel
    obtain ⟨σ, hσ, heq⟩ := Option.map_eq_some_iff.1 hrun
    simp only [Prod.mk.injEq] at heq
    exact ⟨σ, hreachable _ σ hσ, heq⟩
  · have hrun : ((System.run State.exec (fun _ _ => True) .empty (newConnection 7 0 ++
        [.connectionClosing 7, .unregisterFails 7, .maintainLock, .enter])).map fun σ =>
        (σ.pass, σ.closing 7)) = some (.visiting 7 none, .destroying) := by
      decide +kernel
    obtain ⟨σ, hσ, heq⟩ := Option.map_eq_some_iff.1 hrun
    simp only [Prod.mk.injEq] at heq
    exact ⟨σ, hreachable _ σ hσ, heq⟩

end SessionList

end XprcServer
