import XprcServer.Lib.System
import Mathlib.Logic.Function.Basic
import Mathlib.Data.List.Basic

/-!
# Threads that take and release recursive locks

A thread is seen through the operations it performs on recursive locks.  A `Walk` is a sequence of
operations each of which meets a condition on the depths it finds; `Nested` says that a sequence
takes and releases one lock in pairs.

`lockSystem` interleaves any number of threads.  A thread that has nothing to do starts one of its
programs, and a thread performs the next operation of its program as soon as no other thread holds
the lock it asks for.  `Waits` is the waits-for relation of a state, `Deadlocked` a cycle of it.

* `Walk.append`, `Walk.mono`, `Walk.map` : walks compose, weaken and can be renamed;
* `Nested.walk` : nested operations are a walk that ends at the depths it started with;
* `lockSystem_exclusive` : no two threads hold a lock at the same time;
* `lockSystem_walking` : every thread is on a walk at any time.
-/

namespace Lib

variable {L K T : Type} [DecidableEq L] [DecidableEq K] [DecidableEq T]

/-- An operation on a recursive lock. -/
inductive LockOp (L : Type) where
  | lock (l : L)
  | unlock (l : L)
  deriving DecidableEq, Repr

namespace LockOp

/-- What the operation does to the depths of its thread. -/
def apply : LockOp L → (L → ℕ) → L → ℕ
  | lock l, d => Function.update d l (d l + 1)
  | unlock l, d => Function.update d l (d l - 1)

/-- The same operation under another name of the lock. -/
def map (e : L → K) : LockOp L → LockOp K
  | lock l => lock (e l)
  | unlock l => unlock (e l)

theorem apply_map_comp {e : L → K} (he : Function.Injective e) (o : LockOp L) (D : K → ℕ) :
    (o.map e).apply D ∘ e = o.apply (D ∘ e) := by
  cases o with
  | lock l => exact Function.update_comp_eq_of_injective D he l _
  | unlock l => exact Function.update_comp_eq_of_injective D he l _

omit [DecidableEq L] in
theorem apply_map_of_ne {e : L → K} {k : K} (hk : ∀ l, e l ≠ k) (o : LockOp L) (D : K → ℕ) :
    (o.map e).apply D k = D k := by
  cases o with
  | lock l => exact Function.update_of_ne (hk l).symm _ _
  | unlock l => exact Function.update_of_ne (hk l).symm _ _

end LockOp

/-- A sequence of operations from depths `d` to depths `d'`, each of which meets `ok` at the depths
it finds. -/
inductive Walk (ok : (L → ℕ) → LockOp L → Prop) : (L → ℕ) → List (LockOp L) → (L → ℕ) → Prop
  | nil (d : L → ℕ) : Walk ok d [] d
  | cons {d d' : L → ℕ} {o : LockOp L} {os : List (LockOp L)} :
      ok d o → Walk ok (o.apply d) os d' → Walk ok d (o :: os) d'

namespace Walk

variable {ok ok' : (L → ℕ) → LockOp L → Prop} {d d' d'' : L → ℕ} {os os' : List (LockOp L)}

theorem append (h : Walk ok d os d') (h' : Walk ok d' os' d'') : Walk ok d (os ++ os') d'' := by
  induction h with
  | nil => exact h'
  | cons hok _ ih => exact .cons hok (ih h')

theorem mono (hok : ∀ d o, ok d o → ok' d o) (h : Walk ok d os d') : Walk ok' d os d' := by
  induction h with
  | nil => exact .nil _
  | cons ho _ ih => exact .cons (hok _ _ ho) ih

/-- A walk on some locks, seen among more locks: the others stay as they are in `D₀`. -/
theorem map {e : L → K} (he : Function.Injective e) {D : K → ℕ} (D₀ : K → ℕ) (h : Walk ok d os d')
    (hd : D ∘ e = d) (hD : ∀ k, (∀ l, e l ≠ k) → D k = D₀ k) :
    ∃ D', Walk (fun D₁ o => (∀ k, (∀ l, e l ≠ k) → D₁ k = D₀ k) ∧
        ∃ o', o = o'.map e ∧ ok (D₁ ∘ e) o') D (os.map (LockOp.map e)) D' ∧
      D' ∘ e = d' ∧ ∀ k, (∀ l, e l ≠ k) → D' k = D₀ k := by
  induction h generalizing D with
  | nil d => exact ⟨D, .nil D, hd, hD⟩
  | @cons d d' o os hok _ ih =>
    subst hd
    obtain ⟨D', hw, hD'⟩ := ih (LockOp.apply_map_comp he o D) fun k hk =>
      (LockOp.apply_map_of_ne hk o D).trans (hD k hk)
    exact ⟨D', .cons ⟨hD, o, rfl, hok⟩ hw, hD'⟩

end Walk

/-- The operations take and release the lock `l` in pairs, and touch no other lock. -/
inductive Nested (l : L) : List (LockOp L) → Prop
  | nil : Nested l []
  | pair {os os' : List (LockOp L)} : Nested l os → Nested l os' →
      Nested l (.lock l :: (os ++ .unlock l :: os'))

namespace Nested

variable {l : L} {ok : (L → ℕ) → LockOp L → Prop} {os os' : List (LockOp L)}

omit [DecidableEq L] in
theorem append (h : Nested l os) (h' : Nested l os') : Nested l (os ++ os') := by
  induction h with
  | nil => exact h'
  | pair h₁ _ _ ih => simpa using Nested.pair h₁ ih

omit [DecidableEq L] in
theorem single : Nested l [.lock l, .unlock l] := .pair .nil .nil

/-- Nested operations are a walk back to the depths they started with. -/
theorem walk (h : Nested l os) {d : L → ℕ}
    (hlock : ∀ n, d l ≤ n → ok (Function.update d l n) (.lock l))
    (hunlock : ∀ n, d l < n → ok (Function.update d l n) (.unlock l)) : Walk ok d os d := by
  induction h generalizing d with
  | nil => exact .nil d
  | @pair os os' _ _ ih ih' =>
    have hinner := @ih (Function.update d l (d l + 1))
      (by
        intro n hn
        rw [Function.update_idem]
        exact hlock n (by rw [Function.update_self] at hn; omega))
      (by
        intro n hn
        rw [Function.update_idem]
        exact hunlock n (by rw [Function.update_self] at hn; omega))
    have hback : (LockOp.unlock l).apply (Function.update d l (d l + 1)) = d := by
      simp [LockOp.apply]
    refine .cons (by simpa using hlock (d l) (Nat.le_refl _)) (hinner.append (.cons ?_ ?_))
    · exact hunlock (d l + 1) (by omega)
    · rw [hback]
      exact ih' hlock hunlock

end Nested

/-! ### Interleavings -/

/-- How often each thread holds each lock, and the operations it still has to perform in the program
it is executing. -/
structure LockState (T L : Type) where
  depth : T → L → ℕ
  todo : T → List (LockOp L)

/-- The steps of threads. -/
inductive LockAct (T L : Type) where
  | begin (t : T) (ops : List (LockOp L))
  | exec (t : T)

namespace LockState

/-- No thread but `t` holds the lock. -/
def Free (s : LockState T L) (t : T) (l : L) : Prop := ∀ t', t' ≠ t → s.depth t' l = 0

/-- The next operation of `t` asks for a lock that `t'` holds. -/
def Waits (s : LockState T L) (t t' : T) : Prop :=
  t' ≠ t ∧ ∃ l rest, s.todo t = .lock l :: rest ∧ 0 < s.depth t' l

/-- There is a cycle of threads each of which waits for the next one. -/
def Deadlocked (s : LockState T L) : Prop := ∃ t, Relation.TransGen s.Waits t t

/-- No two threads hold a lock at the same time. -/
def Exclusive (s : LockState T L) : Prop :=
  ∀ l t t', 0 < s.depth t l → 0 < s.depth t' l → t = t'

/-- Every thread is on a walk to depths at which it may be idle. -/
def Walking (ok : T → (L → ℕ) → LockOp L → Prop) (idle : T → (L → ℕ) → Prop)
    (s : LockState T L) : Prop :=
  ∀ t, ∃ d', Walk (ok t) (s.depth t) (s.todo t) d' ∧ idle t d'

variable {ok : T → (L → ℕ) → LockOp L → Prop} {idle : T → (L → ℕ) → Prop} {s : LockState T L}
  {t : T} {o : LockOp L} {rest : List (LockOp L)}

omit [DecidableEq T] in
theorem Walking.ok_head (h : s.Walking ok idle) (ht : s.todo t = o :: rest) :
    ok t (s.depth t) o := by
  obtain ⟨d', hw, -⟩ := h t
  rw [ht] at hw
  cases hw with
  | cons hok _ => exact hok

omit [DecidableEq T] in
theorem Walking.idle_of_nil (h : s.Walking ok idle) (ht : s.todo t = []) :
    idle t (s.depth t) := by
  obtain ⟨d', hw, hd'⟩ := h t
  rw [ht] at hw
  cases hw with
  | nil => exact hd'

end LockState

/-- One step: a thread starts a program, or performs the next operation of its program. -/
inductive LockStep (programs : T → (L → ℕ) → List (LockOp L) → Prop) :
    LockState T L → LockAct T L → LockState T L → Prop
  | begin {s : LockState T L} {t : T} {ops : List (LockOp L)} (hidle : s.todo t = [])
      (h : programs t (s.depth t) ops) :
      LockStep programs s (.begin t ops) { s with todo := Function.update s.todo t ops }
  | exec {s : LockState T L} {t : T} {o : LockOp L} {rest : List (LockOp L)}
      (h : s.todo t = o :: rest) (hfree : ∀ l, o = .lock l → s.Free t l) :
      LockStep programs s (.exec t)
        { depth := Function.update s.depth t (o.apply (s.depth t))
          todo := Function.update s.todo t rest }

/-- Threads that execute their programs, in any interleaving. -/
def lockSystem (programs : T → (L → ℕ) → List (LockOp L) → Prop) :
    System (LockState T L) (LockAct T L) where
  init s := s = ⟨fun _ _ => 0, fun _ => []⟩
  next := LockStep programs

section

variable {programs : T → (L → ℕ) → List (LockOp L) → Prop} {s s' : LockState T L}
  {a : LockAct T L}

theorem LockStep.exclusive (h : LockStep programs s a s') (hs : s.Exclusive) : s'.Exclusive := by
  cases h with
  | begin => exact hs
  | @exec t o rest h hfree =>
    -- only `t` gains a lock, and only one that no other thread holds
    have hgain : ∀ l t', 0 < Function.update s.depth t (o.apply (s.depth t)) t' l →
        0 < s.depth t' l ∨ (t' = t ∧ s.Free t l) := by
      intro l t' hpos
      by_cases ht : t' = t
      · subst ht
        rw [Function.update_self] at hpos
        cases o with
        | lock k =>
          by_cases hl : l = k
          · subst hl; exact .inr ⟨rfl, hfree l rfl⟩
          · left; simpa [LockOp.apply, hl] using hpos
        | unlock k =>
          by_cases hl : l = k
          · subst hl
            simp only [LockOp.apply, Function.update_self] at hpos
            left; omega
          · left; simpa [LockOp.apply, hl] using hpos
      · left; simpa [ht] using hpos
    intro l t₁ t₂ h₁ h₂
    rcases hgain l t₁ h₁ with h₁ | ⟨rfl, hf⟩
    · rcases hgain l t₂ h₂ with h₂ | ⟨rfl, hf⟩
      · exact hs l t₁ t₂ h₁ h₂
      · by_contra hne
        exact absurd (hf t₁ hne) (by omega)
    · rcases hgain l t₂ h₂ with h₂ | ⟨rfl, -⟩
      · by_contra hne
        exact absurd (hf t₂ (Ne.symm hne)) (by omega)
      · rfl

theorem lockSystem_exclusive (h : (lockSystem programs).Reachable s) : s.Exclusive := by
  refine h.invariant ?_ fun s a s' _ hs hn => hn.exclusive hs
  rintro s rfl l t t' ht
  exact absurd ht (Nat.lt_irrefl 0)

variable {ok : T → (L → ℕ) → LockOp L → Prop} {idle : T → (L → ℕ) → Prop}

theorem LockStep.walking
    (hprog : ∀ t d ops, idle t d → programs t d ops → ∃ d', Walk (ok t) d ops d' ∧ idle t d')
    (h : LockStep programs s a s') (hs : s.Walking ok idle) : s'.Walking ok idle := by
  cases h with
  | @begin t ops hidle h =>
    intro t'
    by_cases ht : t' = t
    · subst ht
      simpa using hprog t' _ ops (hs.idle_of_nil hidle) h
    · simpa [ht] using hs t'
  | @exec t o rest h hfree =>
    intro t'
    by_cases ht : t' = t
    · subst ht
      obtain ⟨d', hw, hd'⟩ := hs t'
      rw [h] at hw
      cases hw with
      | cons _ hw => exact ⟨d', by simpa using hw, hd'⟩
    · simpa [ht] using hs t'

/-- If the threads start idle and every program is a walk from idle depths to idle depths, every
thread is on a walk in every reachable state. -/
theorem lockSystem_walking (hinit : ∀ t, idle t fun _ => 0)
    (hprog : ∀ t d ops, idle t d → programs t d ops → ∃ d', Walk (ok t) d ops d' ∧ idle t d')
    (h : (lockSystem programs).Reachable s) : s.Walking ok idle := by
  refine h.invariant ?_ fun s a s' _ hs hn => hn.walking hprog hs
  rintro s rfl t
  exact ⟨_, .nil _, hinit t⟩

end

end Lib
