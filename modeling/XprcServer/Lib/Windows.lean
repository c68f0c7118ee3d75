import Mathlib.Data.Int.ModEq

/-!
# Windows of time

Time is cut into windows of the same length, counted from a start.  Something is due once in each
window: at the first of the moments at which it is looked at, in the order of time, that fall into
the window.  A due time that is kept on the boundaries of the windows decides this by one
comparison.

* `nextDue` : the first boundary after a moment;
* `nextDue_le_iff` : the next boundary has been reached iff a later window has begun;
* `opensWindow_iff` : so the due time after the last moment decides whether a moment is the first
  one in its window;
* `Paced` : what this takes of a due time, with a rule for the next moment.
-/

namespace Lib

variable {c i t t' : ℤ}

/-- The number of the window, of those from `c` on with the length `i`, that `t` falls into. -/
def window (c i t : ℤ) : ℤ := (t - c) / i

/-- The first boundary of a window after `t`. -/
def nextDue (c i t : ℤ) : ℤ := c + (window c i t + 1) * i

theorem window_eq_iff (hi : 0 < i) {k : ℤ} :
    window c i t = k ↔ c + k * i ≤ t ∧ t < c + (k + 1) * i := by
  rw [window, Int.ediv_eq_iff_of_pos hi, Int.add_mul, Int.one_mul]
  omega

theorem window_mono (hi : 0 < i) (h : t ≤ t') : window c i t ≤ window c i t' :=
  Int.ediv_le_ediv hi (Int.sub_le_sub_right h c)

theorem lt_nextDue (hi : 0 < i) : t < nextDue c i t := ((window_eq_iff hi).1 rfl).2

theorem nextDue_le_add (hi : 0 < i) : nextDue c i t ≤ t + i := by
  have hle := ((window_eq_iff (c := c) (t := t) hi).1 rfl).1
  rw [nextDue, Int.add_mul, Int.one_mul]
  omega

theorem nextDue_modEq : nextDue c i t ≡ c [ZMOD i] := by
  refine Int.modEq_iff_dvd.2 ⟨-(window c i t + 1), ?_⟩
  rw [nextDue, Int.mul_neg, Int.mul_comm i]
  omega

/-- The next boundary has been reached iff a later window has begun. -/
theorem nextDue_le_iff (hi : 0 < i) : nextDue c i t ≤ t' ↔ window c i t < window c i t' := by
  have hboundary : nextDue c i t ≤ t' ↔ (window c i t + 1) * i ≤ t' - c := by
    rw [nextDue]
    omega
  rw [hboundary, ← Int.le_ediv_iff_mul_le hi]
  exact Int.add_one_le_iff

/-- Only one boundary lies in the time of one window after a moment. -/
theorem eq_nextDue (hi : 0 < i) {due : ℤ} (hmod : due ≡ c [ZMOD i]) (hlt : t < due)
    (hle : due ≤ t + i) : due = nextDue c i t := by
  obtain ⟨k, hk⟩ := Int.modEq_iff_dvd.1 hmod
  have hwindow : window c i t = -k - 1 := by
    rw [window_eq_iff hi, Int.sub_mul, Int.neg_mul, Int.one_mul, Int.add_mul, Int.sub_mul,
      Int.neg_mul, Int.one_mul, Int.mul_comm k]
    omega
  rw [nextDue, hwindow, Int.add_mul, Int.sub_mul, Int.neg_mul, Int.one_mul, Int.mul_comm k]
  omega

/-- Within a window the next boundary stays the same. -/
theorem nextDue_eq_of_lt (hi : 0 < i) (hle : t ≤ t') (hlt : t' < nextDue c i t) :
    nextDue c i t' = nextDue c i t := by
  have hnot : ¬ window c i t < window c i t' := fun h => by
    have := (nextDue_le_iff hi).2 h
    omega
  rw [nextDue, nextDue, Int.le_antisymm (not_lt.1 hnot) (window_mono hi hle)]

/-- The moment `t` lies in a window that none of the `earlier` moments lies in, and that begins
after all of the `runs`. -/
def OpensWindow (c i : ℤ) (earlier runs : List ℤ) (t : ℤ) : Prop :=
  ∃ k : ℤ, (c + k * i ≤ t ∧ t < c + (k + 1) * i) ∧
    (∀ t' ∈ earlier, ¬ (c + k * i ≤ t' ∧ t' < c + (k + 1) * i)) ∧ ∀ t' ∈ runs, t' < c + k * i

/-- **The due time after the last moment decides** whether a moment is the first one in its
window. -/
theorem opensWindow_iff (hi : 0 < i) {earlier runs : List ℤ} {last : ℤ} (hlast : last ∈ earlier)
    (hmax : ∀ t' ∈ earlier, t' ≤ last) (hruns : runs ⊆ earlier) (hle : last ≤ t) :
    OpensWindow c i earlier runs t ↔ nextDue c i last ≤ t := by
  rw [nextDue_le_iff hi]
  constructor
  · rintro ⟨k, hk, hearlier, -⟩
    rw [← window_eq_iff hi] at hk
    have hne : window c i last ≠ k := fun h => hearlier last hlast ((window_eq_iff hi).1 h)
    have hmono := window_mono (c := c) hi hle
    omega
  · intro hlt
    have hbefore : ∀ t' ∈ earlier, window c i t' < window c i t := fun t' ht' =>
      Int.lt_of_le_of_lt (window_mono hi (hmax t' ht')) hlt
    refine ⟨window c i t, (window_eq_iff hi).1 rfl, fun t' ht' hin => ?_, fun t' ht' => ?_⟩
    · exact absurd ((window_eq_iff hi).2 hin) (Int.ne_of_lt (hbefore t' ht'))
    · have hend := ((window_eq_iff (c := c) (t := t') hi).1 rfl).2
      have hmul := Int.mul_le_mul_of_nonneg_right
        (Int.add_one_le_of_lt (hbefore t' (hruns ht'))) (Int.le_of_lt hi)
      omega

/-- The due time is kept for the windows: before the first moment it is a boundary not too far away,
and later it is the first one after the last moment. -/
structure Paced (c i due : ℤ) (frames runs : List ℤ) : Prop where
  runs_subset : runs ⊆ frames
  start : frames = [] → due ≡ c [ZMOD i] ∧ due ≤ c + i
  later : frames ≠ [] → ∃ last ∈ frames, (∀ t' ∈ frames, t' ≤ last) ∧ due = nextDue c i last

namespace Paced

variable {due : ℤ} {frames runs : List ℤ}

theorem modEq (h : Paced c i due frames runs) : due ≡ c [ZMOD i] := by
  by_cases hframes : frames = []
  · exact (h.start hframes).1
  · obtain ⟨last, -, -, hdue⟩ := h.later hframes
    rw [hdue]
    exact nextDue_modEq

theorem le_add (h : Paced c i due frames runs) (hi : 0 < i) (hc : c ≤ t)
    (hmono : ∀ t' ∈ frames, t' ≤ t) : due ≤ t + i := by
  by_cases hframes : frames = []
  · have := (h.start hframes).2
    omega
  · obtain ⟨last, hlast, -, hdue⟩ := h.later hframes
    have hle := hmono last hlast
    have hnext := nextDue_le_add (c := c) (t := last) hi
    omega

/-- After the first moment the due time decides what opens a window. -/
theorem le_iff (h : Paced c i due frames runs) (hi : 0 < i) (hframes : frames ≠ [])
    (hmono : ∀ t' ∈ frames, t' ≤ t) : due ≤ t ↔ OpensWindow c i frames runs t := by
  obtain ⟨last, hlast, hmax, hdue⟩ := h.later hframes
  rw [hdue]
  exact (opensWindow_iff hi hlast hmax h.runs_subset (hmono last hlast)).symm

theorem eq_of_lt (h : Paced c i due frames runs) (hi : 0 < i) (hframes : frames ≠ [])
    (hmono : ∀ t' ∈ frames, t' ≤ t) (hlt : t < due) : due = nextDue c i t := by
  obtain ⟨last, hlast, -, hdue⟩ := h.later hframes
  rw [hdue] at hlt ⊢
  exact (nextDue_eq_of_lt hi (hmono last hlast) hlt).symm

theorem next (hmono : ∀ t' ∈ frames, t' ≤ t) (hruns : runs ⊆ t :: frames) :
    Paced c i (nextDue c i t) (t :: frames) runs := by
  refine ⟨hruns, fun himpossible => absurd himpossible (List.cons_ne_nil _ _), fun _ =>
    ⟨t, List.mem_cons_self, fun t' ht' => ?_, rfl⟩⟩
  rcases List.mem_cons.1 ht' with rfl | hbefore
  · exact Int.le_refl _
  · exact hmono t' hbefore

end Paced

end Lib
