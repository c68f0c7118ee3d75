import Mathlib.Order.Lattice
import Mathlib.Data.Set.Defs
import Mathlib.Data.Int.Order.Basic
import Mathlib.Tactic.ByContra

/-!
# Comparators

A comparator yields a number whose sign says how its arguments are ordered.  It is a total preorder
on some items (`TotalPreorderOn`) if it is one as a relation, and that can be shown by a key: a
function into a linear order by which the items are compared (`TotalPreorderOn.of_key`).
-/

namespace Lib

/-- On these items the comparator is a total preorder. -/
structure TotalPreorderOn {α : Type*} (items : Set α) (cmp : α → α → ℤ) : Prop where
  swap : ∀ a ∈ items, ∀ b ∈ items, (cmp b a).sign = -(cmp a b).sign
  trans : ∀ a ∈ items, ∀ b ∈ items, ∀ c ∈ items, cmp a b ≤ 0 → cmp b c ≤ 0 → cmp a c ≤ 0

namespace TotalPreorderOn

variable {α β : Type*} {items : Set α} {cmp : α → α → ℤ}

/-- A comparator that compares keys is a total preorder. -/
theorem of_key [LinearOrder β] (key : α → β)
    (hlt : ∀ a ∈ items, ∀ b ∈ items, cmp a b < 0 ↔ key a < key b)
    (heq : ∀ a ∈ items, ∀ b ∈ items, cmp a b = 0 ↔ key a = key b) : TotalPreorderOn items cmp := by
  have hle : ∀ a ∈ items, ∀ b ∈ items, cmp a b ≤ 0 ↔ key a ≤ key b := by
    intro a ha b hb
    rw [Int.le_iff_lt_or_eq, le_iff_lt_or_eq, hlt a ha b hb, heq a ha b hb]
  refine ⟨fun a ha b hb => ?_, fun a ha b hb c hc hab hbc => ?_⟩
  · rcases lt_trichotomy (key a) (key b) with h | h | h
    · have hba : ¬ cmp b a ≤ 0 := fun hba => absurd ((hle b hb a ha).1 hba) (not_le_of_gt h)
      rw [Int.sign_eq_neg_one_of_neg ((hlt a ha b hb).2 h), Int.sign_eq_one_of_pos (not_le.1 hba)]
      rfl
    · rw [(heq a ha b hb).2 h, (heq b hb a ha).2 h.symm]
      rfl
    · have hab : ¬ cmp a b ≤ 0 := fun hab => absurd ((hle a ha b hb).1 hab) (not_le_of_gt h)
      rw [Int.sign_eq_neg_one_of_neg ((hlt b hb a ha).2 h), Int.sign_eq_one_of_pos (not_le.1 hab)]
  · exact (hle a ha c hc).2 (le_trans ((hle a ha b hb).1 hab) ((hle b hb c hc).1 hbc))

variable (h : TotalPreorderOn items cmp) {a b c : α}

include h

theorem self (ha : a ∈ items) : cmp a a = 0 := by
  have hswap := h.swap a ha a ha
  rw [← Int.sign_eq_zero_iff_zero]
  omega

theorem lt_iff (ha : a ∈ items) (hb : b ∈ items) : 0 < cmp b a ↔ cmp a b < 0 := by
  rw [← Int.sign_eq_one_iff_pos, ← Int.sign_eq_neg_one_iff_neg, h.swap a ha b hb]
  omega

theorem le_of_not_lt (ha : a ∈ items) (hb : b ∈ items) (hlt : ¬ cmp a b < 0) : cmp b a ≤ 0 :=
  not_lt.1 fun hpos => hlt ((h.lt_iff ha hb).1 hpos)

end TotalPreorderOn

end Lib
