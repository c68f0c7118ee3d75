import Mathlib.Data.Multiset.AddSub

/-!
# Blocks of memory

A heap as far as it matters for leaks and double frees: the blocks that are allocated.  Blocks are
named by the call that allocated them; which calls succeed is arbitrary.  Freeing a block that is
not allocated has no result.

A function is accounted for by what it owns (`Heap.Owns`): the heap has the blocks that were there
before, and its own.

* `Heap.Owns.alloc`, `Heap.Owns.free` : what is allocated is owned, and can be freed once;
* `Heap.Owns.freeAll` : so can all of it, in any order.
-/

namespace Lib

/-- The allocated blocks, and the number of the next call -/
structure Heap where
  calls : ℕ
  live : Multiset ℕ
  deriving DecidableEq

namespace Heap

/-- `malloc`; `ok` says which calls succeed. -/
def alloc (ok : ℕ → Bool) (h : Heap) : Option ℕ × Heap :=
  if ok h.calls then (some h.calls, ⟨h.calls + 1, h.calls ::ₘ h.live⟩)
  else (none, { h with calls := h.calls + 1 })

/-- `free` of a block -/
def free (b : ℕ) (h : Heap) : Option Heap :=
  if b ∈ h.live then some { h with live := h.live.erase b } else none

/-- `free` of one block after the other -/
def freeAll : List ℕ → Heap → Option Heap
  | [], h => some h
  | b :: bs, h => (h.free b).bind (freeAll bs)

/-- Apart from the blocks `base` that were there before, the heap has those of `own`. -/
def Owns (base : Multiset ℕ) (own : List ℕ) (h : Heap) : Prop := h.live = base + own

variable {base : Multiset ℕ} {own own' : List ℕ} {h h' : Heap} {ok : ℕ → Bool} {b : ℕ}

theorem owns_nil (h : Heap) : h.Owns h.live [] := (Multiset.add_zero h.live).symm

theorem Owns.live_eq (hown : h.Owns base []) : h.live = base := hown.trans (Multiset.add_zero base)

theorem Owns.perm (hown : h.Owns base own) (hperm : own.Perm own') : h.Owns base own' :=
  hown.trans (congrArg (base + ·) (Multiset.coe_eq_coe.2 hperm))

/-- An allocation that fails changes nothing; another one gives a block of its own. -/
theorem Owns.alloc (hown : h.Owns base own) (ok : ℕ → Bool) :
    (∃ h', h.alloc ok = (none, h') ∧ h'.Owns base own ∧ ok h.calls = false) ∨
      ∃ b h', h.alloc ok = (some b, h') ∧ h'.Owns base (b :: own) := by
  unfold Heap.alloc
  cases hok : ok h.calls with
  | false => exact .inl ⟨_, rfl, hown, rfl⟩
  | true =>
    refine .inr ⟨_, _, rfl, ?_⟩
    change h.calls ::ₘ h.live = base + ((h.calls :: own : List ℕ) : Multiset ℕ)
    rw [hown, ← Multiset.cons_coe, Multiset.add_cons]

theorem Owns.free (hown : h.Owns base (b :: own)) : ∃ h', h.free b = some h' ∧
    h'.Owns base own := by
  have hlive : h.live = b ::ₘ (base + own) := by
    rw [hown, ← Multiset.cons_coe, Multiset.add_cons]
  have hmem : b ∈ h.live := by
    rw [hlive]
    exact Multiset.mem_cons_self b _
  refine ⟨{ h with live := h.live.erase b }, if_pos hmem, ?_⟩
  change h.live.erase b = base + own
  rw [hlive, Multiset.erase_cons_head]

/-- Everything that is owned can be freed, in any order. -/
theorem Owns.freeAll {bs : List ℕ} (hown : h.Owns base (bs ++ own)) :
    ∃ h', h.freeAll bs = some h' ∧ h'.Owns base own := by
  induction bs generalizing h with
  | nil => exact ⟨h, rfl, hown⟩
  | cons b bs ih =>
    obtain ⟨h₁, hfree, hown₁⟩ := Owns.free hown
    obtain ⟨h₂, hrest, hown₂⟩ := ih hown₁
    refine ⟨h₂, ?_, hown₂⟩
    rw [Heap.freeAll, hfree, Option.bind_some, hrest]

end Heap

end Lib
