import Mathlib.Data.List.Basic

/-!
# Refinement of sequences of operations

A data structure is a partial function that performs one operation and answers it; the value it
stands for is a total function of the same shape.  What each operation keeps, a whole sequence of
operations keeps.

* `performAll_refines` : if every allowed operation has the answer of the abstract machine and keeps
  the relation between the two states, so does every sequence of operations of which each is
  allowed in the abstract state it is performed in;
* `performAll_simulates` : the same for an abstract machine that leaves some of its steps open.
-/

namespace Lib

variable {σ τ op ans : Type}

/-- Operations one after the other and their answers; `none` as soon as one of them fails. -/
def performAll (perform : σ → op → Option (ans × σ)) : σ → List op → Option (List ans × σ)
  | s, [] => some ([], s)
  | s, o :: ops => do
    let (answer, s) ← perform s o
    let (answers, s) ← performAll perform s ops
    return (answer :: answers, s)

/-- The abstract machine: every operation has an answer. -/
def replyAll (reply : τ → op → ans × τ) : τ → List op → List ans × τ
  | t, [] => ([], t)
  | t, o :: ops =>
    let rest := replyAll reply (reply t o).2 ops
    ((reply t o).1 :: rest.1, rest.2)

/-- Each operation is allowed in the state it is performed in. -/
def Admissible (allowed : τ → op → Prop) (reply : τ → op → ans × τ) : τ → List op → Prop
  | _, [] => True
  | t, o :: ops => allowed t o ∧ Admissible allowed reply (reply t o).2 ops

section

variable {perform : σ → op → Option (ans × σ)} {reply : τ → op → ans × τ}
  {allowed : τ → op → Prop} {Stands : σ → τ → Prop}

/-- Where the state does not matter, each operation is to be allowed by itself. -/
theorem admissible_of_forall {permitted : op → Prop} {t : τ} {ops : List op}
    (h : ∀ o ∈ ops, permitted o) : Admissible (fun _ o => permitted o) reply t ops := by
  induction ops generalizing t with
  | nil => trivial
  | cons o ops ih =>
    exact ⟨h o List.mem_cons_self, ih fun o' ho' => h o' (List.mem_cons_of_mem _ ho')⟩

/-- **Sequences of operations refine the abstract machine if single ones do.** -/
theorem performAll_refines
    (hstep : ∀ s t o, allowed t o → Stands s t →
      ∃ s', perform s o = some ((reply t o).1, s') ∧ Stands s' (reply t o).2)
    {s : σ} {t : τ} {ops : List op} (hops : Admissible allowed reply t ops) (h : Stands s t) :
    ∃ s', performAll perform s ops = some ((replyAll reply t ops).1, s') ∧
      Stands s' (replyAll reply t ops).2 := by
  induction ops generalizing s t with
  | nil => exact ⟨s, rfl, h⟩
  | cons o ops ih =>
    obtain ⟨s', hperform, h'⟩ := hstep s t o hops.1 h
    obtain ⟨s'', hrest, h''⟩ := ih hops.2 h'
    refine ⟨s'', ?_, h''⟩
    simp only [performAll, hperform, Option.bind_eq_bind, Option.bind_some, hrest, replyAll]
    rfl

end

/-! ### Abstract steps as a relation -/

/-- Each operation is allowed in the state it is performed in. -/
def AdmissibleRun (allowed : σ → op → Prop) (perform : σ → op → Option (ans × σ)) :
    σ → List op → Prop
  | _, [] => True
  | s, o :: ops => allowed s o ∧
    match perform s o with
    | some (_, s') => AdmissibleRun allowed perform s' ops
    | none => True

/-- Where the state does not matter, each operation is to be allowed by itself. -/
theorem admissibleRun_of_forall {permitted : op → Prop} {perform : σ → op → Option (ans × σ)}
    {s : σ}
    {ops : List op} (h : ∀ o ∈ ops, permitted o) :
    AdmissibleRun (fun _ o => permitted o) perform s ops := by
  induction ops generalizing s with
  | nil => trivial
  | cons o ops ih =>
    refine ⟨h o List.mem_cons_self, ?_⟩
    cases perform s o with
    | none => trivial
    | some result => exact ih fun o' ho' => h o' (List.mem_cons_of_mem _ ho')

/-- Operations with their answers, each as the abstract machine may perform it. -/
inductive Steps (spec : τ → op → ans → τ → Prop) : τ → List op → List ans → τ → Prop
  | nil (t : τ) : Steps spec t [] [] t
  | cons {t t' t'' : τ} {o : op} {a : ans} {ops : List op} {as : List ans} :
    spec t o a t' → Steps spec t' ops as t'' → Steps spec t (o :: ops) (a :: as) t''

/-- **Sequences of operations follow the abstract machine if single ones do.** -/
theorem performAll_simulates {perform : σ → op → Option (ans × σ)} {allowed : σ → op → Prop}
    {spec : τ → op → ans → τ → Prop} {Stands : σ → τ → Prop}
    (hstep : ∀ s t o, allowed s o → Stands s t →
      ∃ a s' t', perform s o = some (a, s') ∧ spec t o a t' ∧ Stands s' t')
    {s : σ} {t : τ} {ops : List op} (hops : AdmissibleRun allowed perform s ops) (h : Stands s t) :
    ∃ as s' t', performAll perform s ops = some (as, s') ∧ Steps spec t ops as t' ∧
      Stands s' t' := by
  induction ops generalizing s t with
  | nil => exact ⟨[], s, t, rfl, .nil t, h⟩
  | cons o ops ih =>
    obtain ⟨a, s', t', hperform, hspec, h'⟩ := hstep s t o hops.1 h
    have hrest := hops.2
    rw [hperform] at hrest
    obtain ⟨as, s'', t'', hall, hsteps, h''⟩ := ih hrest h'
    refine ⟨a :: as, s'', t'', ?_, .cons hspec hsteps, h''⟩
    simp only [performAll, hperform, Option.bind_eq_bind, Option.bind_some, hall]
    rfl

end Lib
