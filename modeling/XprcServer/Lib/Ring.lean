import Mathlib.Data.List.Basic
import Mathlib.Tactic.SplitIfs

/-!
# Ring buffers with a read and a write position

A ring of `n` cells holds the cells from the read position `r` up to (not including) the write
position `w`, wrapping at the end; equal positions mean that nothing is pending, so a ring holds
at most `n - 1` cells.

* `Ring.contents` : the pending cells in the order they will be read;
* `Ring.contents_append` : writing behind the pending cells appends to the contents;
* `Ring.contents_drop` : advancing the read position drops from the contents.
-/

namespace Lib

namespace Ring

variable {α : Type*} {n r w : ℕ}

/-- The number of pending cells. -/
def pending (n r w : ℕ) : ℕ := if r ≤ w then w - r else n - r + w

/-- The cell `i` positions behind `r`. -/
def index (n r i : ℕ) : ℕ := if r + i < n then r + i else r + i - n

/-- The pending cells in reading order. -/
def contents (n : ℕ) (cells : ℕ → α) (r w : ℕ) : List α :=
  (List.range (pending n r w)).map fun i => cells (index n r i)

@[simp] theorem length_contents (cells : ℕ → α) :
    (contents n cells r w).length = pending n r w := by
  simp [contents]

theorem pending_lt (hr : r < n) (hw : w < n) : pending n r w < n := by
  unfold pending; split_ifs <;> omega

theorem index_lt (hr : r < n) {i : ℕ} (hi : i < n) : index n r i < n := by
  unfold index; split_ifs <;> omega

/-- The write position is the cell right behind the pending ones. -/
theorem index_pending (hr : r < n) (hw : w < n) : index n r (pending n r w) = w := by
  unfold index pending; split_ifs <;> omega

theorem pending_index (hr : r < n) {k : ℕ} (hk : k < n) : pending n r (index n r k) = k := by
  unfold pending index; split_ifs <;> omega

theorem index_index (hr : r < n) {i k : ℕ} (h : i + k < n) :
    index n (index n r k) i = index n r (i + k) := by
  unfold index; split_ifs <;> omega

theorem pending_advance (hr : r < n) (hw : w < n) {k : ℕ} (hk : k ≤ pending n r w) :
    pending n (index n r k) w = pending n r w - k := by
  have hlt := pending_lt hr hw
  unfold pending at hk hlt ⊢
  unfold index
  split_ifs at hk hlt ⊢ <;> omega

/-- Writing `xs` behind the pending cells, without touching these, appends `xs`. -/
theorem contents_append {cells cells' : ℕ → α} {xs : List α} {w' : ℕ} (hr : r < n)
    (hw' : w' = index n r (pending n r w + xs.length)) (hroom : pending n r w + xs.length < n)
    (hold : ∀ i < pending n r w, cells' (index n r i) = cells (index n r i))
    (hnew : ∀ j (hj : j < xs.length), cells' (index n r (pending n r w + j)) = xs[j]) :
    contents n cells' r w' = contents n cells r w ++ xs := by
  have hp : pending n r w' = pending n r w + xs.length := by rw [hw', pending_index hr hroom]
  simp only [contents, hp]
  rw [List.range_add, List.map_append, List.map_map]
  congr 1
  · exact List.map_congr_left fun i hi => hold i (List.mem_range.1 hi)
  · apply List.ext_getElem
    · simp
    · intro j h1 h2
      simpa using hnew j h2

/-- Advancing the read position by `k` drops the first `k` pending cells. -/
theorem contents_drop {cells : ℕ → α} (hr : r < n) (hw : w < n) {k : ℕ}
    (hk : k ≤ pending n r w) :
    contents n cells (index n r k) w = (contents n cells r w).drop k := by
  have hlt := pending_lt hr hw
  apply List.ext_getElem
  · simp [pending_advance hr hw hk]
  · intro i h1 h2
    simp only [length_contents, pending_advance hr hw hk] at h1
    simp only [contents, List.getElem_drop, List.getElem_map, List.getElem_range]
    rw [index_index hr (by omega), Nat.add_comm]

theorem getElem_contents {cells : ℕ → α} {i : ℕ} (h : i < (contents n cells r w).length) :
    (contents n cells r w)[i] = cells (index n r i) := by
  simp [contents]

end Ring

end Lib
