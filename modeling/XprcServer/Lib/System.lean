import Mathlib.Logic.Relation

/-!
# Guarded transition systems

Every run-level result of this development is stated over a `System`: initial states and
labelled steps.  An interleaving of threads is such a system whose labels name the thread that
moves; a sequence of calls is one whose labels are the calls.

* `System.Reachable` : the states some run reaches;
* `System.Reachable.invariant` : what holds initially and survives every step holds in every
  reachable state;
* `System.restrict` : the same system, in which only the steps allowed by a guard on the state
  before the step are taken.  A run of it is a run of the whole system whose steps all meet the
  guard;
* `System.ofExec`, `System.reachable_run` : a system whose steps are executed, and its runs.
-/

namespace Lib

/-- A transition system with states `σ` and step labels `act`. -/
structure System (σ : Type*) (act : Type*) where
  /-- The initial states. -/
  init : σ → Prop
  /-- `next s a s'` : from `s` the system can perform `a` and be in `s'`. -/
  next : σ → act → σ → Prop

namespace System

variable {σ act : Type*} {M : System σ act}

/-- The states that some run of the system reaches. -/
inductive Reachable (M : System σ act) : σ → Prop
  | start {s : σ} : M.init s → Reachable M s
  | step {s s' : σ} (a : act) : Reachable M s → M.next s a s' → Reachable M s'

/-- An invariant that may use that the states before the steps are reachable. -/
theorem Reachable.invariant {I : σ → Prop} {s : σ} (h : M.Reachable s)
    (hinit : ∀ s, M.init s → I s)
    (hstep : ∀ s a s', M.Reachable s → I s → M.next s a s' → I s') : I s := by
  induction h with
  | start hs => exact hinit _ hs
  | step a hs hn ih => exact hstep _ a _ hs ih hn

/-- The system restricted to the steps that meet `guard` in the state before the step. -/
def restrict (M : System σ act) (guard : σ → act → Prop) : System σ act where
  init := M.init
  next s a s' := guard s a ∧ M.next s a s'

theorem Reachable.of_restrict {guard : σ → act → Prop} {s : σ}
    (h : (M.restrict guard).Reachable s) : M.Reachable s := by
  induction h with
  | start hs => exact .start hs
  | step a _ hn ih => exact .step a ih hn.2

theorem Reachable.allowed {guard : σ → act → Prop} {s s' : σ}
    (h : (M.restrict guard).Reachable s) (a : act) (hguard : guard s a) (hnext : M.next s a s') :
    (M.restrict guard).Reachable s' :=
  .step a h ⟨hguard, hnext⟩

/-! ### Executable systems -/

/-- The system whose steps are the successful results of a function. -/
def ofExec (start : σ) (exec : σ → act → Option σ) : System σ act where
  init s := s = start
  next s a s' := exec s a = some s'

/-- Perform steps one after another, all of them allowed by `guard`. -/
def run (exec : σ → act → Option σ) (guard : σ → act → Prop) [∀ s a, Decidable (guard s a)] :
    σ → List act → Option σ
  | s, [] => some s
  | s, a :: as => if guard s a then (exec s a).bind fun s' => run exec guard s' as else none

theorem reachable_run {start : σ} {exec : σ → act → Option σ} {guard : σ → act → Prop}
    [∀ s a, Decidable (guard s a)] {s s' : σ} {as : List act}
    (h : ((ofExec start exec).restrict guard).Reachable s) (hrun : run exec guard s as = some s') :
    ((ofExec start exec).restrict guard).Reachable s' := by
  induction as generalizing s with
  | nil =>
    cases hrun
    exact h
  | cons a as ih =>
    rw [run] at hrun
    split at hrun
    case isTrue hguard =>
      obtain ⟨s₁, hstep, hrest⟩ := Option.bind_eq_some_iff.1 hrun
      exact ih (h.allowed a hguard hstep) hrest
    case isFalse => cases hrun

end System

end Lib
