import Mathlib.Data.List.Perm.Basic
import Mathlib.Logic.Equiv.Basic

/-!
# Rearranging a part of an array

Places of an array are integers, as indices in a program are; there is nothing at a place outside of
the array (`entry`).  `Rearranges lo hi xs ys` says that `ys` is `xs` with the entries from `lo` to
`hi` put into another order.

* `Rearranges.exchange` : two entries change places;
* `Rearranges.allWithin` : what is known about all entries of a part is known about them in another
  order;
* `SortedWithin.join` : two sorted parts next to each other, none of whose entries are in the wrong
  part.
-/

namespace Lib

variable {α : Type*}

/-- What is at a place of the array. -/
def entry (xs : List α) (i : ℤ) : Option α := if 0 ≤ i then xs[i.toNat]? else none

/-- Two entries change places. -/
def exchange (xs : List α) (i j : ℤ) (a b : α) : List α := (xs.set i.toNat b).set j.toNat a

/-- The entries from `lo` to `hi` are put into another order. -/
structure Rearranges (lo hi : ℤ) (xs ys : List α) : Prop where
  perm : ys.Perm xs
  places : ∃ σ : Equiv.Perm ℤ, (∀ i, entry ys i = entry xs (σ i)) ∧ ∀ i,
  ¬ (lo ≤ i ∧ i ≤ hi) → σ i = i

/-- All entries from `lo` to `hi` have the property. -/
def AllWithin (lo hi : ℤ) (P : α → Prop) (xs : List α) : Prop :=
  ∀ k a, lo ≤ k → k ≤ hi → entry xs k = some a → P a

/-- The entries from `lo` to `hi` are in the order of the comparator. -/
def SortedWithin (lo hi : ℤ) (cmp : α → α → ℤ) (xs : List α) : Prop :=
  ∀ k l a b, lo ≤ k → k < l → l ≤ hi → entry xs k = some a → entry xs l = some b → cmp a b ≤ 0

/-! ### Entries -/

section

variable {xs ys : List α} {i j : ℤ} {a b : α}

theorem entry_eq_some_iff : entry xs i = some a ↔ 0 ≤ i ∧ xs[i.toNat]? = some a := by
  unfold entry
  split_ifs with h <;> simp [h]

theorem exists_entry (h : 0 ≤ i) (hlt : i < xs.length) : ∃ a, entry xs i = some a :=
  ⟨xs[i.toNat], entry_eq_some_iff.2 ⟨h, List.getElem?_eq_getElem (by omega)⟩⟩

theorem entry_natCast (n : ℕ) : entry xs n = xs[n]? := by
  rw [entry, if_pos (Int.natCast_nonneg n), Int.toNat_natCast]

theorem mem_of_entry (h : entry xs i = some a) : a ∈ xs :=
  List.mem_of_getElem? (entry_eq_some_iff.1 h).2

theorem entry_exchange (ha : entry xs i = some a) (hb : entry xs j = some b) (k : ℤ) :
    entry (exchange xs i j a b) k = entry xs (Equiv.swap i j k) := by
  obtain ⟨hi, hai⟩ := entry_eq_some_iff.1 ha
  obtain ⟨hj, hbj⟩ := entry_eq_some_iff.1 hb
  have hilt := (List.getElem?_eq_some_iff.1 hai).1
  have hjlt := (List.getElem?_eq_some_iff.1 hbj).1
  by_cases hkj : k = j
  · subst hkj
    rw [Equiv.swap_apply_right, ha, entry, if_pos hj, exchange, List.getElem?_set_self]
    rwa [List.length_set]
  by_cases hki : k = i
  · subst hki
    rw [Equiv.swap_apply_left, hb, entry, if_pos hi, exchange, List.getElem?_set_ne (by omega),
      List.getElem?_set_self hilt]
  · rw [Equiv.swap_apply_of_ne_of_ne hki hkj, entry, entry]
    split_ifs with hk
    · rw [exchange, List.getElem?_set_ne (by omega), List.getElem?_set_ne (by omega)]
    · rfl

theorem exchange_perm (ha : entry xs i = some a) (hb : entry xs j = some b) :
    (exchange xs i j a b).Perm xs := by
  obtain ⟨hilt, rfl⟩ := List.getElem?_eq_some_iff.1 (entry_eq_some_iff.1 ha).2
  obtain ⟨hjlt, rfl⟩ := List.getElem?_eq_some_iff.1 (entry_eq_some_iff.1 hb).2
  exact List.set_set_perm hilt hjlt

end

/-! ### Rearrangements -/

namespace Rearranges

variable {lo hi lo' hi' : ℤ} {xs ys zs : List α} {P : α → Prop} {cmp : α → α → ℤ}

theorem refl (lo hi : ℤ) (xs : List α) : Rearranges lo hi xs xs :=
  ⟨.refl xs, Equiv.refl ℤ, fun _ => rfl, fun _ _ => rfl⟩

theorem trans (h : Rearranges lo hi xs ys) (h' : Rearranges lo hi ys zs) :
    Rearranges lo hi xs zs := by
  obtain ⟨σ, hσ, hout⟩ := h.places
  obtain ⟨τ, hτ, hout'⟩ := h'.places
  refine ⟨h'.perm.trans h.perm, τ.trans σ, fun i => ?_, fun i hi => ?_⟩
  · rw [hτ, hσ, Equiv.trans_apply]
  · rw [Equiv.trans_apply, hout' i hi, hout i hi]

/-- A part of a part is rearranged. -/
theorem mono (h : Rearranges lo hi xs ys) (hlo : lo' ≤ lo) (hhi : hi ≤ hi') :
    Rearranges lo' hi' xs ys := by
  obtain ⟨σ, hσ, hout⟩ := h.places
  exact ⟨h.perm, σ, hσ, fun i hi => hout i (by omega)⟩

theorem exchange {i j : ℤ} {a b : α} (ha : entry xs i = some a) (hb : entry xs j = some b)
    (hin : lo ≤ i ∧ i ≤ hi) (hjn : lo ≤ j ∧ j ≤ hi) :
    Rearranges lo hi xs (exchange xs i j a b) := by
  refine ⟨exchange_perm ha hb, Equiv.swap i j, entry_exchange ha hb, fun k hk => ?_⟩
  refine Equiv.swap_apply_of_ne_of_ne ?_ ?_
  · rintro rfl
    exact hk hin
  · rintro rfl
    exact hk hjn

/-- Outside of the part nothing changes. -/
theorem entry_outside (h : Rearranges lo hi xs ys) {k : ℤ} (hk : ¬ (lo ≤ k ∧ k ≤ hi)) :
    entry ys k = entry xs k := by
  obtain ⟨σ, hσ, hout⟩ := h.places
  rw [hσ, hout k hk]

/-- What is in the part comes from it. -/
theorem entry_inside (h : Rearranges lo hi xs ys) {k : ℤ} (hk : lo ≤ k ∧ k ≤ hi) :
    ∃ k', (lo ≤ k' ∧ k' ≤ hi) ∧ entry ys k = entry xs k' := by
  obtain ⟨σ, hσ, hout⟩ := h.places
  refine ⟨σ k, ?_, hσ k⟩
  by_contra hσk
  -- otherwise the place outside would be taken twice
  have heq : σ k = k := σ.injective (hout (σ k) hσk)
  rw [heq] at hσk
  exact hσk hk

theorem length_eq (h : Rearranges lo hi xs ys) : ys.length = xs.length := h.perm.length_eq

/-- The property is known of all entries of a part in which, or outside of which, the order
changes. -/
theorem allWithin (h : Rearranges lo hi xs ys) (hall : AllWithin lo' hi' P xs)
    (hpart : lo' ≤ lo ∧ hi ≤ hi' ∨ hi < lo' ∨ hi' < lo) : AllWithin lo' hi' P ys := by
  intro k a hlo hhi hentry
  by_cases hk : lo ≤ k ∧ k ≤ hi
  · obtain ⟨k', hk', heq⟩ := h.entry_inside hk
    exact hall k' a (by omega) (by omega) (heq ▸ hentry)
  · exact hall k a hlo hhi (h.entry_outside hk ▸ hentry)

theorem sortedWithin (h : Rearranges lo hi xs ys) (hsorted : SortedWithin lo' hi' cmp xs)
    (hpart : hi < lo' ∨ hi' < lo) : SortedWithin lo' hi' cmp ys := by
  intro k l a b hlo hkl hhi hk hl
  rw [h.entry_outside (by omega)] at hk hl
  exact hsorted k l a b hlo hkl hhi hk hl

end Rearranges

/-! ### Sorted parts -/

namespace SortedWithin

variable {lo hi mid : ℤ} {xs : List α} {cmp : α → α → ℤ}

theorem of_le (h : hi ≤ lo) : SortedWithin lo hi cmp xs := fun _ _ _ _ _ _ _ _ _ => by omega

theorem join (hfront : SortedWithin lo mid cmp xs) (hrear : SortedWithin (mid + 1) hi cmp xs)
    (hcross : AllWithin lo mid (fun a => AllWithin (mid + 1) hi (fun b => cmp a b ≤ 0) xs) xs) :
    SortedWithin lo hi cmp xs := by
  intro k l a b hlo hkl hhi hk hl
  by_cases hl' : l ≤ mid
  · exact hfront k l a b hlo hkl hl' hk hl
  by_cases hk' : k ≤ mid
  · exact hcross k a hlo hk' hk l b (by omega) hhi hl
  · exact hrear k l a b (by omega) hkl hhi hk hl

theorem pairwise (h : SortedWithin 0 (xs.length - 1) cmp xs) : xs.Pairwise fun a b =>
    cmp a b ≤ 0 := by
  rw [List.pairwise_iff_getElem]
  intro i j hi hj hij
  refine h i j _ _ (by omega) (by omega) (by omega) ?_ ?_
  · rw [entry_natCast, List.getElem?_eq_getElem hi]
  · rw [entry_natCast, List.getElem?_eq_getElem hj]

end SortedWithin

end Lib
