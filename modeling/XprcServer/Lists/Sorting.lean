import XprcServer.Lib.Comparators
import XprcServer.Lib.Rearrange
import XprcServer.Lists.Linked

/-!
# Sorting lists

`copy_list_sorted` collects the items of a list in an array, sorts that by Hoare's algorithm, and
appends the values to a new list.  The inner loops of the partition are not guarded: that they stay
within the limits is due to the pivot, and to the items that were exchanged.

* `sortListItemsPartition_spec` : what a call partitions, and where it ends;
* `sortListItemsQuicksort_sorts` : the algorithm ends, and sorts;
* `copyListSorted_sorts` : so does the copy, and the list is left as it was.

An access outside of the limits of the current call fails.
-/

namespace XprcServer

open Lib

section

variable {α : Type} (comparator : α → α → ℤ)

/-! ### The algorithm -/

/-- The array is read within the limits of the call. -/
def readItem (items : List α) (lowerLimit upperLimit i : ℤ) : Access α :=
  if lowerLimit ≤ i ∧ i ≤ upperLimit then entry items i else none

/-- The array is written within the limits of the call. -/
def writeItem (items : List α) (lowerLimit upperLimit i : ℤ) (item : α) : Access (List α) := do
  let _ ← readItem items lowerLimit upperLimit i
  return items.set i.toNat item

/-- An inner loop moves on by `step` before it reads, and stops at the first item that is not
passed. -/
def scan (items : List α) (lowerLimit upperLimit step : ℤ) (passed : α → Bool) : ℕ → ℤ → Access ℤ
  | 0, _ => none
  | fuel + 1, i => do
    let item ← readItem items lowerLimit upperLimit (i + step)
    if passed item then scan items lowerLimit upperLimit step passed fuel (i + step)
    else return i + step

/-- `while (comparator(items[++i], pivot_item) < 0);` -/
def scanUp (items : List α) (lowerLimit upperLimit : ℤ) (pivotItem : α) : ℕ → ℤ → Access ℤ :=
  scan items lowerLimit upperLimit 1 fun item => comparator item pivotItem < 0

/-- `while (comparator(items[--j], pivot_item) > 0);` -/
def scanDown (items : List α) (lowerLimit upperLimit : ℤ) (pivotItem : α) : ℕ → ℤ → Access ℤ :=
  scan items lowerLimit upperLimit (-1) fun item => comparator item pivotItem > 0

/-- As many passes as a loop between the limits can have. -/
def passes (lowerLimit upperLimit : ℤ) : ℕ := (upperLimit - lowerLimit + 2).toNat

/-- The loop of `sort_list_items_partition` -/
def partitionLoop (lowerLimit upperLimit : ℤ) (pivotItem : α) :
    ℕ → List α → ℤ → ℤ → Access (List α × ℤ)
  | 0, _, _, _ => none
  | fuel + 1, items, i, j => do
    let i ← scanUp comparator items lowerLimit upperLimit pivotItem (passes lowerLimit upperLimit) i
    let j ← scanDown comparator items lowerLimit upperLimit pivotItem
        (passes lowerLimit upperLimit) j
    if i ≥ j then return (items, j)
    else
      let tmp ← readItem items lowerLimit upperLimit i
      let item ← readItem items lowerLimit upperLimit j
      let items ← writeItem items lowerLimit upperLimit i item
      let items ← writeItem items lowerLimit upperLimit j tmp
      partitionLoop lowerLimit upperLimit pivotItem fuel items i j

/-- `sort_list_items_partition` -/
def sortListItemsPartition (items : List α) (lowerLimit upperLimit : ℤ) : Access (List α × ℤ) := do
  let pivotItem ← readItem items lowerLimit upperLimit lowerLimit
  partitionLoop comparator lowerLimit upperLimit pivotItem (passes lowerLimit upperLimit) items
    (lowerLimit - 1) (upperLimit + 1)

/-- `sort_list_items_quicksort_internal`; the first argument bounds the depth of the recursion. -/
def sortListItemsQuicksortInternal : ℕ → List α → ℤ → ℤ → Access (List α)
  | 0, _, _, _ => none
  | fuel + 1, items, lowerLimit, upperLimit =>
    if lowerLimit < 0 ∨ upperLimit < 0 ∨ lowerLimit ≥ upperLimit then return items
    else do
      let (items, pivotIndex) ← sortListItemsPartition comparator items lowerLimit upperLimit
      let items ← sortListItemsQuicksortInternal fuel items lowerLimit pivotIndex
      sortListItemsQuicksortInternal fuel items (pivotIndex + 1) upperLimit

/-- `sort_list_items_quicksort` -/
def sortListItemsQuicksort (items : List α) (lowerLimit upperLimit : ℤ) : Access (List α) :=
  sortListItemsQuicksortInternal comparator (passes lowerLimit upperLimit) items
    lowerLimit upperLimit

/-! ### The inner loops -/

variable {comparator} {items : List α} {lower upper : ℤ} {pivot : α}

theorem readItem_eq {i : ℤ} (h : lower ≤ i ∧ i ≤ upper) : readItem items lower upper i =
    entry items i :=
  if_pos h

/-- Where an inner loop stops that has an item in front of it at which it stops at the latest. -/
theorem scan_spec {step : ℤ} (passed : α → Bool) (path : ℕ → ℤ)
    (hpath : ∀ n, path (n + 1) = path n + step)
    {fuel : ℕ} (m : ℕ) (hm : 0 < m) (hfuel : m ≤ fuel)
    (hread : ∀ n, 0 < n → n ≤ m → ∃ a, readItem items lower upper (path n) = some a)
    (hstop : ∀ a, readItem items lower upper (path m) = some a → passed a = false) :
    ∃ n a, scan items lower upper step passed fuel (path 0) = some (path n) ∧ 0 < n ∧ n ≤ m ∧
      readItem items lower upper (path n) = some a ∧ passed a = false ∧
      ∀ k b, 0 < k → k < n → readItem items lower upper (path k) = some b → passed b = true := by
  induction fuel generalizing path m with
  | zero => omega
  | succ fuel ih =>
    obtain ⟨a, ha⟩ := hread 1 Nat.one_pos hm
    have hfirst : path 0 + step = path 1 := (hpath 0).symm
    rw [scan, hfirst, ha, Option.bind_eq_bind, Option.bind_some]
    by_cases hpassed : passed a = true
    swap
    · rw [if_neg hpassed]
      exact ⟨1, a, rfl, Nat.one_pos, hm, ha, by simpa using hpassed, fun k b hk hlt => by omega⟩
    -- the item at which the loop stops at the latest is still ahead
    have hm1 : m ≠ 1 := by
      rintro rfl
      rw [hstop a ha] at hpassed
      exact absurd hpassed Bool.false_ne_true
    obtain ⟨m, rfl⟩ : ∃ k, m = k + 1 := ⟨m - 1, by omega⟩
    obtain ⟨n, b, hscan, hn, hnm, hb, hstops, hbefore⟩ := ih (fun n => path (n + 1))
      (fun n => hpath (n + 1)) m (by omega) (by omega)
      (fun n hn hle => hread (n + 1) (Nat.succ_pos n) (Nat.succ_le_succ hle)) hstop
    rw [if_pos hpassed]
    refine ⟨n + 1, b, hscan, Nat.succ_pos n, Nat.succ_le_succ hnm, hb, hstops,
      fun k c hk hlt hc => ?_⟩
    obtain ⟨k, rfl⟩ : ∃ l, k = l + 1 := ⟨k - 1, by omega⟩
    by_cases hk0 : k = 0
    · subst hk0
      rw [Nat.zero_add, ha, Option.some.injEq] at hc
      rwa [← hc]
    · exact hbefore k c (Nat.pos_of_ne_zero hk0) (by omega) hc

section

variable (hzero : 0 ≤ lower) (hlength : upper < items.length)

include hzero hlength

theorem exists_readItem {i : ℤ} (h : lower ≤ i ∧ i ≤ upper) :
    ∃ a, readItem items lower upper i = some a := by
  rw [readItem_eq h]
  exact exists_entry (by omega) (by omega)

/-- The first loop stops in front of the sentinel, or at it. -/
theorem scanUp_spec {i sentinel : ℤ} {item : α} (hsentinel : entry items sentinel = some item)
    (hstop : 0 ≤ comparator item pivot) (hlo : lower ≤ i + 1) (hle : i < sentinel)
    (hhi : sentinel ≤ upper) :
    ∃ k a, scanUp comparator items lower upper pivot (passes lower upper) i = some k ∧
      i < k ∧ k ≤ sentinel ∧ entry items k = some a ∧ 0 ≤ comparator a pivot ∧
      AllWithin (i + 1) (k - 1) (fun a => comparator a pivot < 0) items := by
  obtain ⟨n, a, hscan, hn, hnm, ha, hstops, hbefore⟩ := scan_spec
    (fun item => comparator item pivot < 0) (fun n : ℕ => i + n)
    (fun n => show i + ((n + 1 : ℕ) : ℤ) = i + n + 1 by push_cast; omega)
      (sentinel - i).toNat (by omega)
    (show _ ≤ passes lower upper by unfold passes; omega)
    (fun n hn hle => exists_readItem hzero hlength (by omega))
    (fun b hb => by
      rw [readItem_eq (by omega), show i + ((sentinel - i).toNat : ℤ) = sentinel by omega,
        hsentinel, Option.some.injEq] at hb
      rw [← hb]
      simpa using hstop)
  rw [readItem_eq (by omega)] at ha
  refine ⟨i + n, a, ?_, by omega, by omega, ha, by simpa using hstops, fun k b hlo' hhi' hb => ?_⟩
  · rw [← hscan, Int.natCast_zero, Int.add_zero, scanUp]
  · obtain ⟨l, rfl⟩ : ∃ l : ℕ, k = i + l := ⟨(k - i).toNat, by omega⟩
    have hpassed := hbefore l b (by omega) (by omega) (by rw [readItem_eq (by omega), hb])
    simpa using hpassed

/-- The second loop stops behind the sentinel, or at it. -/
theorem scanDown_spec {j sentinel : ℤ} {item : α} (hsentinel : entry items sentinel = some item)
    (hstop : comparator item pivot ≤ 0) (hhi : j ≤ upper + 1) (hle : sentinel < j)
    (hlo : lower ≤ sentinel) :
    ∃ k a, scanDown comparator items lower upper pivot (passes lower upper) j = some k ∧
      sentinel ≤ k ∧ k < j ∧ entry items k = some a ∧ comparator a pivot ≤ 0 ∧
      AllWithin (k + 1) (j - 1) (fun a => 0 < comparator a pivot) items := by
  obtain ⟨n, a, hscan, hn, hnm, ha, hstops, hbefore⟩ := scan_spec
    (fun item => comparator item pivot > 0) (fun n : ℕ => j - n)
    (fun n => show j - ((n + 1 : ℕ) : ℤ) = j - n + -1 by push_cast; omega)
      (j - sentinel).toNat (by omega)
    (show _ ≤ passes lower upper by unfold passes; omega)
    (fun n hn hle => exists_readItem hzero hlength (by omega))
    (fun b hb => by
      rw [readItem_eq (by omega), show j - ((j - sentinel).toNat : ℤ) = sentinel by omega,
        hsentinel, Option.some.injEq] at hb
      rw [← hb]
      simpa using hstop)
  rw [readItem_eq (by omega)] at ha
  refine ⟨j - n, a, ?_, by omega, by omega, ha, by simpa using hstops, fun k b hlo' hhi' hb => ?_⟩
  · rw [← hscan, Int.natCast_zero, Int.sub_zero, scanDown]
  · obtain ⟨l, rfl⟩ : ∃ l : ℕ, k = j - l := ⟨(j - k).toNat, by omega⟩
    have hpassed := hbefore l b (by omega) (by omega) (by rw [readItem_eq (by omega), hb])
    simpa using hpassed

/-! ### The partition -/

/-- Between two passes: what is on either side, and the items at which the inner loops will stop at
the latest.  Until the first exchange, the first of these is the pivot. -/
structure Partitioning (comparator : α → α → ℤ) (lower upper : ℤ) (pivot : α)
    (items : List α) (i j : ℤ) :
    Prop where
  lower_le : lower ≤ i + 1
  lt : i < j
  le_upper : j ≤ upper + 1
  low : AllWithin lower i (fun a => comparator a pivot ≤ 0) items
  high : AllWithin j upper (fun a => 0 ≤ comparator a pivot) items
  stopUp : ∃ k a, i < k ∧ k ≤ upper ∧ (upper < j → k = lower) ∧ entry items k = some a ∧
    0 ≤ comparator a pivot
  stopDown : ∃ k a, lower ≤ k ∧ k < j ∧ entry items k = some a ∧ comparator a pivot ≤ 0

/-- What a partition yields: the limit between what is not greater and what is not less than the
pivot. -/
structure Partitioned (comparator : α → α → ℤ) (lower upper : ℤ) (pivot : α)
    (items : List α) (j : ℤ) :
    Prop where
  lower_le : lower ≤ j
  lt_upper : j < upper
  low : AllWithin lower j (fun a => comparator a pivot ≤ 0) items
  high : AllWithin (j + 1) upper (fun a => 0 ≤ comparator a pivot) items

/-- One pass: the end of the partition, or an exchange of two items between what is on either
side. -/
theorem Partitioning.pass {i j : ℤ} (h : Partitioning comparator lower upper pivot items i j)
    (hlt : lower < upper) :
    ∃ i' j' a b, scanUp comparator items lower upper pivot (passes lower upper) i = some i' ∧
      scanDown comparator items lower upper pivot (passes lower upper) j = some j' ∧
      i < i' ∧ j' < j ∧ lower ≤ j' ∧ i' ≤ upper ∧ entry items i' = some a ∧
      entry items j' = some b ∧
      (j' ≤ i' → Partitioned comparator lower upper pivot items j') ∧
      (i' < j' → Partitioning comparator lower upper pivot (exchange items i' j' a b) i' j') := by
  obtain ⟨k, up, hik, hkupper, hfirst, hup, hstopUp⟩ := h.stopUp
  obtain ⟨l, down, hll, hlj, hdown, hstopDown⟩ := h.stopDown
  obtain ⟨i', a, hscanUp, hi, hi'k, ha, ha0, hpassedUp⟩ :=
    scanUp_spec hzero hlength hup hstopUp h.lower_le hik hkupper
  obtain ⟨j', b, hscanDown, hlj', hj, hb, hb0, hpassedDown⟩ :=
    scanDown_spec hzero hlength hdown hstopDown h.le_upper hlj hll
  have hlow : AllWithin lower (i' - 1) (fun a => comparator a pivot ≤ 0) items := by
    intro m c hlo hhi hc
    by_cases hm : m ≤ i
    · exact h.low m c hlo hm hc
    · exact Int.le_of_lt (hpassedUp m c (by omega) hhi hc)
  have hhigh : AllWithin (j' + 1) upper (fun a => 0 ≤ comparator a pivot) items := by
    intro m c hlo hhi hc
    by_cases hm : j ≤ m
    · exact h.high m c hm hhi hc
    · exact Int.le_of_lt (hpassedDown m c hlo (by omega) hc)
  have hle_upper := h.le_upper
  have hlower_le := h.lower_le
  refine ⟨i', j', a, b, hscanUp, hscanDown, hi, hj, by omega, by omega, ha, hb, fun hmet => ?_,
    fun hapart => ?_⟩
  · refine ⟨by omega, ?_, ?_, hhigh⟩
    · -- in the first pass the loops meet at the pivot
      by_cases hjupper : upper < j
      · have hk := hfirst hjupper
        omega
      · omega
    · intro m c hlo hhi hc
      by_cases hm : m ≤ i' - 1
      · exact hlow m c hlo hm hc
      · obtain rfl : m = j' := by omega
        rw [hb, Option.some.injEq] at hc
        rwa [← hc]
  · have hentry := entry_exchange ha hb
    have hsame : ∀ m, m ≠ i' → m ≠ j' → entry (exchange items i' j' a b) m = entry items m := by
      intro m hmi hmj
      rw [hentry, Equiv.swap_apply_of_ne_of_ne hmi hmj]
    have hati : entry (exchange items i' j' a b) i' = some b := by
      rw [hentry, Equiv.swap_apply_left, hb]
    have hatj : entry (exchange items i' j' a b) j' = some a := by
      rw [hentry, Equiv.swap_apply_right, ha]
    refine ⟨by omega, hapart, by omega, fun m c hlo hhi hc => ?_, fun m c hlo hhi hc => ?_,
      ⟨j', a, hapart, by omega, fun hupper => by omega, hatj, ha0⟩,
      ⟨i', b, by omega, hapart, hati, hb0⟩⟩
    · by_cases hm : m = i'
      · subst hm
        rw [hati, Option.some.injEq] at hc
        rwa [← hc]
      · rw [hsame m hm (by omega)] at hc
        exact hlow m c hlo (by omega) hc
    · by_cases hm : m = j'
      · subst hm
        rw [hatj, Option.some.injEq] at hc
        rwa [← hc]
      · rw [hsame m (by omega) hm] at hc
        exact hhigh m c (by omega) hhi hc

end

theorem exchange_accesses {i j : ℤ} {a b : α} (hi : lower ≤ i ∧ i ≤ upper)
    (hj : lower ≤ j ∧ j ≤ upper) (ha : entry items i = some a) (hb : entry items j = some b) :
    readItem items lower upper i = some a ∧ readItem items lower upper j = some b ∧
      writeItem items lower upper i b = some (items.set i.toNat b) ∧
      writeItem (items.set i.toNat b) lower upper j a = some (exchange items i j a b) := by
  have hread : readItem items lower upper i = some a := by rw [readItem_eq hi, ha]
  obtain ⟨hj0, hj'⟩ := entry_eq_some_iff.1 hb
  have hjlt := (List.getElem?_eq_some_iff.1 hj').1
  have hlt : j < (items.set i.toNat b).length := by rw [List.length_set]; omega
  obtain ⟨c, hc⟩ := exists_entry hj0 hlt
  refine ⟨hread, by rw [readItem_eq hj, hb], ?_, ?_⟩
  · rw [writeItem, hread]
    rfl
  · rw [writeItem, readItem_eq hj, hc]
    rfl

theorem partitionLoop_spec {fuel : ℕ} {i j : ℤ} (hzero : 0 ≤ lower) (hlength : upper < items.length)
    (hlt : lower < upper) (h : Partitioning comparator lower upper pivot items i j)
    (hfuel : j - i ≤ fuel) :
    ∃ items' j', partitionLoop comparator lower upper pivot fuel items i j = some (items', j') ∧
      Rearranges lower upper items items' ∧ Partitioned comparator lower upper pivot items' j' := by
  induction fuel generalizing items i j with
  | zero =>
    have hij := h.lt
    omega
  | succ fuel ih =>
    obtain ⟨i', j', a, b, hscanUp, hscanDown, hi, hj, hlo, hhi, ha, hb, hmet, hapart⟩ :=
      h.pass hzero hlength hlt
    have hlower_le := h.lower_le
    have hle_upper := h.le_upper
    rw [partitionLoop, hscanUp, Option.bind_eq_bind, Option.bind_some, hscanDown,
      Option.bind_eq_bind, Option.bind_some]
    by_cases hdone : i' ≥ j'
    · rw [if_pos hdone]
      exact ⟨items, j', rfl, .refl lower upper items, hmet hdone⟩
    obtain ⟨hreadi, hreadj, hwritei, hwritej⟩ :=
      exchange_accesses (show lower ≤ i' ∧ i' ≤ upper by omega) (by omega) ha hb
    have hexchange : Rearranges lower upper items (exchange items i' j' a b) :=
      .exchange ha hb (by omega) (by omega)
    obtain ⟨items', k, hloop, hrest, hresult⟩ := ih (by rw [hexchange.length_eq]; exact hlength)
      (hapart (by omega)) (by push_cast at hfuel; omega)
    refine ⟨items', k, ?_, hexchange.trans hrest, hresult⟩
    rw [if_neg hdone, hreadi, Option.bind_some, hreadj, Option.bind_some, hwritei,
      Option.bind_eq_bind, Option.bind_some, hwritej, Option.bind_some]
    exact hloop

/-- **What the partition does**, whatever the items are: it ends, and divides them by the pivot. -/
theorem sortListItemsPartition_spec {s : Set α} (hcmp : TotalPreorderOn s comparator)
    (hitems : ∀ a ∈ items, a ∈ s) (hzero : 0 ≤ lower) (hlength : upper < items.length)
    (hlt : lower < upper) :
    ∃ pivot ∈ items, ∃ items' j, sortListItemsPartition comparator items lower upper =
      some (items', j) ∧
      Rearranges lower upper items items' ∧ Partitioned comparator lower upper pivot items' j := by
  obtain ⟨pivot, hpivot⟩ := exists_entry hzero (show lower < items.length by omega)
  have hmem := mem_of_entry hpivot
  have hself := hcmp.self (hitems pivot hmem)
  have hstart : Partitioning comparator lower upper pivot items (lower - 1) (upper + 1) :=
    ⟨by omega, by omega, by omega, fun k _ hlo hhi => by omega, fun k _ hlo hhi => by omega,
      ⟨lower, pivot, by omega, by omega, fun _ => rfl, hpivot, by omega⟩,
      ⟨lower, pivot, by omega, by omega, hpivot, by omega⟩⟩
  obtain ⟨items', j, hloop, hresult⟩ := partitionLoop_spec hzero hlength hlt hstart
    (show _ ≤ (passes lower upper : ℤ) by unfold passes; omega)
  refine ⟨pivot, hmem, items', j, ?_, hresult⟩
  rw [sortListItemsPartition, readItem_eq (by omega), hpivot]
  exact hloop

/-! ### The algorithm -/

/-- What is on the one side of the pivot is not greater than what is on the other. -/
theorem Partitioned.cross {s : Set α} (hcmp : TotalPreorderOn s comparator) {j : ℤ}
    (h : Partitioned comparator lower upper pivot items j) (hpivot : pivot ∈ s)
    (hitems : ∀ a ∈ items, a ∈ s) :
    AllWithin lower j (fun a => AllWithin (j + 1) upper (fun b => comparator a b ≤ 0) items)
      items := by
  intro k a hlo hhi ha l b hlo' hhi' hb
  have hamem := hitems a (mem_of_entry ha)
  have hbmem := hitems b (mem_of_entry hb)
  have hb0 := h.high l b hlo' hhi' hb
  refine hcmp.trans a hamem pivot hpivot b hbmem (h.low k a hlo hhi ha) ?_
  exact hcmp.le_of_not_lt hbmem hpivot (not_lt.2 hb0)

theorem sortListItemsQuicksortInternal_sorts {s : Set α} (hcmp : TotalPreorderOn s comparator)
    {fuel : ℕ} (hitems : ∀ a ∈ items, a ∈ s) (hzero : 0 ≤ lower) (hlength : upper < items.length)
    (hfuel : upper - lower < fuel) (hpos : 0 < fuel) :
    ∃ items', sortListItemsQuicksortInternal comparator fuel items lower upper = some items' ∧
      Rearranges lower upper items items' ∧ SortedWithin lower upper comparator items' := by
  induction fuel generalizing items lower upper with
  | zero => exact absurd hpos (Nat.lt_irrefl 0)
  | succ fuel ih =>
    rw [sortListItemsQuicksortInternal]
    by_cases hdone : lower < 0 ∨ upper < 0 ∨ lower ≥ upper
    · rw [if_pos hdone]
      exact ⟨items, rfl, .refl lower upper items, .of_le (by omega)⟩
    obtain ⟨pivot, hpivot, parted, j, hpartition, hparted, hresult⟩ :=
      sortListItemsPartition_spec hcmp hitems hzero hlength (by omega)
    have hlo := hresult.lower_le
    have hhi := hresult.lt_upper
    have hmem₁ : ∀ a ∈ parted, a ∈ s := fun a ha => hitems a (hparted.perm.mem_iff.1 ha)
    obtain ⟨front, hsort₁, hfront, hsorted₁⟩ := ih hmem₁ hzero
      (show j < parted.length by rw [hparted.length_eq]; omega) (by push_cast at hfuel; omega)
        (by omega)
    have hmem₂ : ∀ a ∈ front, a ∈ s := fun a ha => hmem₁ a (hfront.perm.mem_iff.1 ha)
    obtain ⟨whole, hsort₂, hrear, hsorted₂⟩ := ih hmem₂ (show 0 ≤ j + 1 by omega)
      (show upper < front.length by rw [hfront.length_eq, hparted.length_eq]; exact hlength)
        (by push_cast at hfuel; omega)
      (by omega)
    have hmem₃ : ∀ a ∈ whole, a ∈ s := fun a ha => hmem₂ a (hrear.perm.mem_iff.1 ha)
    refine ⟨whole, ?_, ?_, ?_⟩
    · rw [if_neg hdone, hpartition, Option.bind_eq_bind, Option.bind_some]
      dsimp only
      rw [hsort₁, Option.bind_eq_bind, Option.bind_some, hsort₂]
    · exact (hparted.trans (hfront.mono (Int.le_refl lower) (by omega))).trans
        (hrear.mono (by omega) (Int.le_refl upper))
    · -- sorting the parts leaves every item on its side of the pivot
      have hsides : Partitioned comparator lower upper pivot whole j :=
        ⟨hlo, hhi,
          hrear.allWithin (hfront.allWithin hresult.low (.inl ⟨Int.le_refl _, Int.le_refl _⟩))
            (.inr (.inr (by omega))),
          hrear.allWithin (hfront.allWithin hresult.high (.inr (.inl (by omega))))
            (.inl ⟨Int.le_refl _, Int.le_refl _⟩)⟩
      exact (hrear.sortedWithin hsorted₁ (.inr (by omega))).join hsorted₂
        (hsides.cross hcmp (hitems pivot hpivot) hmem₃)

/-- **The algorithm ends, and sorts**: every access is within the limits of its call. -/
theorem sortListItemsQuicksort_sorts {s : Set α} (hcmp : TotalPreorderOn s comparator)
    (hitems : ∀ a ∈ items, a ∈ s) :
    ∃ items', sortListItemsQuicksort comparator items 0 (items.length - 1) = some items' ∧
      items'.Perm items ∧ items'.Pairwise fun a b => comparator a b ≤ 0 := by
  have hlength : (items.length : ℤ) - 1 < items.length := by omega
  have hfuel : (items.length : ℤ) - 1 - 0 < passes 0 (items.length - 1) := by unfold passes; omega
  obtain ⟨items', hsort, hperm, hsorted⟩ := sortListItemsQuicksortInternal_sorts hcmp hitems
    (Int.le_refl 0) hlength hfuel (by unfold passes; omega)
  rw [← hperm.length_eq] at hsorted
  exact ⟨items', hsort, hperm.perm, hsorted.pairwise⟩

end

/-! ### The copy -/

namespace LinkedList

variable {ν : Type}

/-- The loop of `copy_list_sorted` that collects the items; nothing if there are more than the size
of the list says. -/
def collectItems (heap : ListHeap ν) (size : ℤ) : ℕ → Option ℕ → List ℕ → Access (Option (List ℕ))
  | _, none, items => some (some items)
  | 0, some _, _ => none
  | fuel + 1, some it, items =>
    if items.length ≥ size then some none
    else do
      let cell ← heap it
      collectItems heap size fuel cell.next (items ++ [it])

/-- The loop of `copy_list_sorted` that appends the values; the address of the `i`-th new item is
`alloc i`. -/
def appendValues (alloc : ℕ → Option ℕ) : ℕ → List ℕ → LinkedList → ListHeap ν →
    Access (Bool × LinkedList × ListHeap ν)
  | _, [], out, heap => some (true, out, heap)
  | i, item :: items, out, heap => do
    let cell ← heap item
    let (appended, out, heap) ← out.append heap (alloc i) cell.value
    if appended then appendValues alloc (i + 1) items out heap else return (false, out, heap)

/-- `copy_list_sorted`; `created` and `allocated` say whether there is memory for the list and for
the array.  The comparator is given items in a memory that does not change while they are sorted. -/
def copyListSorted (created allocated : Bool) (alloc : ℕ → Option ℕ) (heap : ListHeap ν)
    (original : LinkedList) (comparator : ℕ → ℕ → ℤ) : Access (Option LinkedList × ListHeap ν) :=
  if ¬ created then some (none, heap)
  else if original.size ≤ 0 then some (some createList, heap)
  else if ¬ allocated then some (none, heap)
  else do
    match ← collectItems heap original.size (original.size.toNat + 1) original.head [] with
    | none => return (some createList, heap) -- size changed during access
    | some items =>
      if items.length ≠ original.size then return (some createList, heap)
      else
        let items ← sortListItemsQuicksort comparator items 0 (original.size - 1)
        let (appended, out, heap) ← appendValues alloc 0 items createList heap
        if appended then return (some out, heap)
        else
          let heap ← out.destroy heap items.length
          return (none, heap)

variable {list out : LinkedList} {heap heap₀ : ListHeap ν} {items : List (ℕ × ν)}

theorem collectItems_eq {p : Option ℕ} {size : ℤ} {before addresses : List ℕ}
    (hlinks : Linked heap.next p addresses) (hlive : ∀ a ∈ addresses, heap a ≠ none) {fuel : ℕ}
    (hfuel : addresses.length ≤ fuel) (hsize : before.length + addresses.length = size) :
    collectItems heap size fuel p before = some (some (before ++ addresses)) := by
  induction addresses generalizing p before fuel with
  | nil =>
    obtain rfl : p = none := hlinks
    cases fuel <;> simp [collectItems]
  | cons a addresses ih =>
    obtain ⟨rfl, hrest⟩ := hlinks
    obtain ⟨fuel, rfl, hle⟩ := exists_fuel hfuel
    obtain ⟨cell, hcell⟩ := Option.ne_none_iff_exists'.1 (hlive a List.mem_cons_self)
    rw [ListHeap.next, hcell, Option.bind_some] at hrest
    rw [List.length_cons] at hsize
    rw [collectItems, if_neg (by push_cast at hsize; omega), hcell, Option.bind_eq_bind,
      Option.bind_some, ih hrest (fun b hb => hlive b (List.mem_cons_of_mem a hb)) hle
        (by rw [List.length_append, List.length_singleton]; push_cast at hsize ⊢; omega)]
    simp

/-- A list whose items are elsewhere is not touched when a value is appended. -/
theorem append_frame {fresh : ℕ} {value : ν} {out' : LinkedList} {heap' : ListHeap ν}
    (h : out.Holds heap items) (hfree : heap fresh = none)
    (happend : out.append heap (some fresh) value = some (true, out', heap')) {a : ℕ}
    (hnew : a ≠ fresh) (ha : a ∉ items.map Prod.fst) : heap' a = heap a := by
  have htail : ∀ b, out.tail = some b → b ∈ items.map Prod.fst := by
    intro b hb
    rw [h.links.last_eq] at hb
    exact List.mem_of_getLast? hb
  obtain ⟨written, hwrites, -, hold⟩ :=
    append_writes out hfree (fun b hb => h.live (htail b hb)) value
  rw [happend, Option.some.injEq, Prod.mk.injEq, Prod.mk.injEq] at hwrites
  obtain rfl : heap' = written := hwrites.2.2
  rw [hold a hnew]
  cases heap a with
  | none => rfl
  | some cell => rw [Option.map_some, if_neg fun heq => ha (htail a heq)]

/-- The new list holds the values so far at the first addresses, and all other memory is as it
was. -/
structure Copying (fresh : ℕ → ℕ) (heap₀ heap : ListHeap ν) (out : LinkedList)
    (copied : List (ℕ × ν)) :
    Prop where
  holds : out.Holds heap copied
  addresses : ∀ a ∈ copied.map Prod.fst, ∃ k < copied.length, a = fresh k
  free : ∀ k, copied.length ≤ k → heap (fresh k) = none
  frame : ∀ a, (∀ k, a ≠ fresh k) → heap a = heap₀ a

theorem Copying.append {fresh : ℕ → ℕ} (hinj : Function.Injective fresh) {copied : List (ℕ × ν)}
    (h : Copying fresh heap₀ heap out copied) (value : ν) :
    ∃ out' heap', out.append heap (some (fresh copied.length)) value = some (true, out', heap') ∧
      Copying fresh heap₀ heap' out' (copied ++ [(fresh copied.length, value)]) := by
  have hfree := h.free copied.length (Nat.le_refl _)
  obtain ⟨out', heap', happend, hholds⟩ := h.holds.append hfree value
  have hframe := fun a => append_frame (a := a) h.holds hfree happend
  refine ⟨out', heap', happend, hholds, fun a ha => ?_, fun k hk => ?_, fun a ha => ?_⟩
  · rw [List.length_append, List.length_singleton]
    rw [List.map_append, List.mem_append] at ha
    rcases ha with ha | ha
    · obtain ⟨k, hk, rfl⟩ := h.addresses a ha
      exact ⟨k, by omega, rfl⟩
    · exact ⟨copied.length, by omega, by simpa using ha⟩
  · rw [List.length_append, List.length_singleton] at hk
    rw [hframe (fresh k) (fun heq => ?_) fun hmem => ?_]
    · exact h.free k (by omega)
    · have := hinj heq
      omega
    · obtain ⟨l, hl, heq⟩ := h.addresses _ hmem
      have := hinj heq
      omega
  · rw [hframe a (ha _) fun hmem => ?_, h.frame a ha]
    obtain ⟨k, -, heq⟩ := h.addresses a hmem
    exact ha k heq

theorem appendValues_spec {fresh : ℕ → ℕ} (hinj : Function.Injective fresh)
    {copied todo : List (ℕ × ν)} (h : Copying fresh heap₀ heap out copied)
    (hcells : ∀ e ∈ todo, (heap₀ e.1).map ListItem.value = some e.2 ∧ ∀ k, e.1 ≠ fresh k) :
    ∃ out' heap' copied', appendValues (fun i => some (fresh i)) copied.length
      (todo.map Prod.fst) out heap =
        some (true, out', heap') ∧
      Copying fresh heap₀ heap' out' (copied ++ copied') ∧ copied'.map Prod.snd =
        todo.map Prod.snd := by
  induction todo generalizing copied heap out with
  | nil => exact ⟨out, heap, [], rfl, by rwa [List.append_nil], rfl⟩
  | cons e todo ih =>
    obtain ⟨hvalue, helse⟩ := hcells e List.mem_cons_self
    rw [← h.frame e.1 helse] at hvalue
    obtain ⟨cell, hcell, hcellvalue⟩ := Option.map_eq_some_iff.1 hvalue
    obtain ⟨out₁, heap₁, happend, h₁⟩ := h.append hinj e.2
    obtain ⟨out', heap', copied', hrest, h', hvalues⟩ :=
      ih h₁ fun e' he' => hcells e' (List.mem_cons_of_mem e he')
    refine ⟨out', heap', (fresh copied.length, e.2) :: copied', ?_, ?_, ?_⟩
    · rw [List.map_cons, appendValues, hcell, Option.bind_eq_bind, Option.bind_some,
        hcellvalue, happend, Option.bind_eq_bind, Option.bind_some]
      rw [List.length_append, List.length_singleton] at hrest
      exact hrest
    · rwa [List.append_assoc, List.singleton_append] at h'
    · rw [List.map_cons, List.map_cons, hvalues]

/-- The addresses of items, in any order, are those of the items in some order. -/
theorem exists_perm_of_addresses {addresses : List ℕ} (h : addresses.Perm (items.map Prod.fst)) :
    ∃ sorted : List (ℕ × ν), sorted.Perm items ∧ sorted.map Prod.fst = addresses := by
  have hcomp : Relation.Comp (fun l (l' : List (ℕ × ν)) => l = l'.map Prod.fst) List.Perm
      addresses items := by
    rw [List.eq_map_comp_perm]
    exact h
  obtain ⟨sorted, hsorted, hperm⟩ := hcomp
  exact ⟨sorted, hperm, hsorted.symm⟩

theorem Holds.congr {heap' : ListHeap ν} (h : list.Holds heap items)
    (hsame : ∀ a ∈ items.map Prod.fst, heap' a = heap a) : list.Holds heap' items := by
  refine ⟨h.links.congr (fun a ha => ?_) fun a ha => ?_, fun e he => ?_, h.size⟩
  · rw [ListHeap.next, ListHeap.next, hsame a ha]
  · rw [ListHeap.prev, ListHeap.prev, hsame a ha]
  · rw [hsame e.1 (List.mem_map_of_mem he), h.cells e he]

/-- **A list is copied in the order of the comparator**, and left as it was.  No access is outside
of the limits of the call that makes it. -/
theorem copyListSorted_sorts (h : list.Holds heap items) {comparator : ℕ → ℕ → ℤ}
    (hcmp : TotalPreorderOn {a | a ∈ items.map Prod.fst} comparator) {fresh : ℕ → ℕ}
    (hinj : Function.Injective fresh) (hfree : ∀ k, heap (fresh k) = none) :
    ∃ out heap', ∃ copied sorted : List (ℕ × ν), copyListSorted true true (fun k => some (fresh k))
      heap list comparator =
        some (some out, heap') ∧
      out.Holds heap' copied ∧ copied.map Prod.snd = sorted.map Prod.snd ∧ sorted.Perm items ∧
      (sorted.Pairwise fun e e' => comparator e.1 e'.1 ≤ 0) ∧
      list.Holds heap' items ∧ ∀ a, heap a ≠ none → heap' a = heap a := by
  have helse : ∀ a, heap a ≠ none → ∀ k, a ≠ fresh k := by
    rintro a ha k rfl
    exact ha (hfree k)
  by_cases hempty : list.size ≤ 0
  · -- nothing is to be sorted
    obtain rfl : items = [] := by
      have hsize := h.size
      exact List.length_eq_zero_iff.1 (by omega)
    refine ⟨createList, heap, [], [], ?_, holds_createList heap, rfl, .nil, .nil, h, fun _ _ => rfl⟩
    rw [copyListSorted, if_neg (by decide), if_pos hempty]
  have hsize := h.size
  have hlength : (items.map Prod.fst).length = items.length := List.length_map ..
  have hfuel : (items.map Prod.fst).length ≤ list.size.toNat + 1 := by rw [hlength]; omega
  have hcollect : collectItems heap list.size (list.size.toNat + 1) list.head [] =
      some (some ([] ++ items.map Prod.fst)) :=
    collectItems_eq h.links.forward (fun a => h.live) hfuel
      (by rw [hlength, List.length_nil]; omega)
  obtain ⟨addresses, hsort, hperm, hsorted⟩ := sortListItemsQuicksort_sorts hcmp fun a ha => ha
  obtain ⟨sorted, hpermitems, rfl⟩ := exists_perm_of_addresses hperm
  have hstart : Copying fresh heap heap createList [] :=
    ⟨holds_createList heap, (fun _ ha => nomatch ha), fun k _ => hfree k, fun _ _ => rfl⟩
  have hcells : ∀ e ∈ sorted, (heap e.1).map ListItem.value = some e.2 ∧ ∀ k, e.1 ≠ fresh k := by
    intro e he
    have hmem := hpermitems.mem_iff.1 he
    exact ⟨h.cells e hmem, helse e.1 (h.live (List.mem_map_of_mem hmem))⟩
  obtain ⟨out, heap', copied, happend, hcopied, hvalues⟩ := appendValues_spec hinj hstart hcells
  have hframe : ∀ a, heap a ≠ none → heap' a = heap a := fun a ha => hcopied.frame a (helse a ha)
  refine ⟨out, heap', copied, sorted, ?_, hcopied.holds, hvalues, hpermitems, ?_, ?_, hframe⟩
  · rw [copyListSorted, if_neg (by decide), if_neg hempty, if_neg (by decide), hcollect,
      Option.bind_eq_bind, Option.bind_some]
    dsimp only
    rw [hlength] at hsort
    rw [List.nil_append, if_neg (by rw [hlength]; omega), hsize, hsort, Option.bind_eq_bind,
      Option.bind_some, ← List.length_nil (α := ℕ × ν), happend]
    rfl
  · exact List.pairwise_map.1 hsorted
  · exact h.congr fun a ha => hframe a (h.live ha)

/-- A memory with two items, the one at the greater address first -/
def twoItems : ListHeap ℕ
  | 0 => some ⟨7, some 1, none⟩
  | 1 => some ⟨5, none, some 0⟩
  | _ => none

theorem holds_twoItems : LinkedList.Holds ⟨some 1, some 0, 2⟩ twoItems [(1, 5), (0, 7)] :=
  ⟨⟨⟨rfl, rfl, rfl⟩, ⟨rfl, rfl, rfl⟩⟩, by decide, rfl⟩

theorem totalPreorderOn_addresses (s : Set ℕ) : TotalPreorderOn s fun a b : ℕ => (a : ℤ) - b :=
  .of_key id (fun a _ b _ => by dsimp only [id]; omega) fun a _ b _ => by dsimp only [id]; omega

theorem copyListSorted_sorts_two :
    ∃ out heap', ∃ copied sorted : List (ℕ × ℕ),
      copyListSorted true true (fun k => some (k + 2)) twoItems
        ⟨some 1, some 0, 2⟩ (fun a b => (a : ℤ) - b) = some (some out, heap') ∧
      out.Holds heap' copied ∧ copied.map Prod.snd = sorted.map Prod.snd ∧
      sorted.Perm [(1, 5), (0, 7)] ∧ (sorted.Pairwise fun e e' => (e.1 : ℤ) - e'.1 ≤ 0) ∧
      LinkedList.Holds ⟨some 1, some 0, 2⟩ heap' [(1, 5), (0, 7)] ∧
      ∀ a, twoItems a ≠ none → heap' a = twoItems a :=
  copyListSorted_sorts holds_twoItems (totalPreorderOn_addresses _)
    (fun k l (h : k + 2 = l + 2) => Nat.add_right_cancel h) fun _ => rfl

end LinkedList

end XprcServer
