import Mathlib.Data.Nat.Notation
import Mathlib.Logic.Function.Basic
import Mathlib.Tactic.SplitIfs

/-!
# Things that are issued once and used up once

Numbered things are issued one after another and kept in places: a place holds at most one of them,
and a thing is in at most one place.  Each is to be used up exactly once; a thing that is used up
may stay in its place until the place is needed again.

`Custody holds spent next count` says that this is so: `next` things were issued, `spent` are the
places whose thing is used up, and `count` is how often a thing was used up.  The rules say which
steps keep it:

* `Custody.issue` : a new thing is put into a place;
* `Custody.move` : a thing goes to another place;
* `Custody.spend` : the thing in a place is used up;
* `Custody.discard` : the thing in a place is used up, and the place is empty then;
* `Custody.congr` : nothing changes for the places.

No thing is used up twice (`Custody.count_le_one`), and one that is not in a place has been used up
(`Custody.settled`).
-/

namespace Lib

/-- The things issued so far are in the places, or were used up once. -/
structure Custody {P : Type*} (holds : P → Option ℕ) (spent : P → Prop) (next : ℕ) (count : ℕ → ℕ) :
    Prop where
  lt : ∀ p d, holds p = some d → d < next
  unique : ∀ p q d, holds p = some d → holds q = some d → p = q
  unspent : ∀ p d, holds p = some d → ¬ spent p → count d = 0
  used : ∀ p d, holds p = some d → spent p → count d = 1
  settled : ∀ d, d < next → (∀ p, holds p ≠ some d) → count d = 1
  fresh : ∀ d, next ≤ d → count d = 0

namespace Custody

variable {P : Type*} {holds holds' : P → Option ℕ} {spent spent' : P → Prop} {next : ℕ}
  {count : ℕ → ℕ} {p q : P} {d : ℕ}

/-- Nothing was issued yet. -/
theorem empty (h : ∀ p, holds p = none) : Custody holds spent 0 fun _ => 0 := by
  refine ⟨fun p d hp => ?_, fun p q d hp => ?_, fun p d hp => ?_, fun p d hp => ?_,
    fun d hlt => ?_, fun _ _ => rfl⟩
  · rw [h p] at hp
    cases hp
  · rw [h p] at hp
    cases hp
  · rw [h p] at hp
    cases hp
  · rw [h p] at hp
    cases hp
  · exact absurd hlt (Nat.not_lt_zero d)

theorem congr (h : Custody holds spent next count) (hholds : ∀ p, holds' p = holds p)
    (hspent : ∀ p, holds p ≠ none → (spent' p ↔ spent p)) : Custody holds' spent' next count := by
  obtain rfl : holds' = holds := funext hholds
  have hiff : ∀ p d, holds' p = some d → (spent' p ↔ spent p) := by
    intro p d hp
    exact hspent p (by rw [hp]; exact Option.some_ne_none d)
  exact ⟨h.lt, h.unique, fun p d hp hs => h.unspent p d hp (mt (hiff p d hp).2 hs),
    fun p d hp hs => h.used p d hp ((hiff p d hp).1 hs), h.settled, h.fresh⟩

theorem count_le_one (h : Custody holds spent next count) (d : ℕ) : count d ≤ 1 := by
  by_cases hlt : d < next
  · by_cases hheld : ∃ p, holds p = some d
    · obtain ⟨p, hp⟩ := hheld
      by_cases hs : spent p
      · exact Nat.le_of_eq (h.used p d hp hs)
      · rw [h.unspent p d hp hs]
        exact Nat.zero_le 1
    · exact Nat.le_of_eq (h.settled d hlt fun p hp => hheld ⟨p, hp⟩)
  · rw [h.fresh d (Nat.le_of_not_lt hlt)]
    exact Nat.zero_le 1

/-- A thing that has not been used up is in a place that is not spent. -/
theorem held_of_count (h : Custody holds spent next count) (hlt : d < next) (hcount : count d ≠ 1) :
    ∃ p, holds p = some d ∧ ¬ spent p := by
  by_contra hnone
  refine hcount (h.settled d hlt fun p hp => hcount (h.used p d hp ?_))
  by_contra hs
  exact hnone ⟨p, hp, hs⟩

variable [DecidableEq P]

/-- A new thing is put into a place whose thing, if it had one, is used up. -/
theorem issue (h : Custody holds spent next count) (hp : ∀ d, holds p = some d → spent p) :
    Custody (Function.update holds p (some next)) (fun q => q ≠ p ∧ spent q) (next + 1) count := by
  have hcases : ∀ q d, Function.update holds p (some next) q = some d →
      (q = p ∧ d = next) ∨ (q ≠ p ∧ holds q = some d) := by
    intro q d hq
    by_cases hqp : q = p
    · subst hqp
      rw [Function.update_self] at hq
      exact .inl ⟨rfl, (Option.some.inj hq).symm⟩
    · rw [Function.update_of_ne hqp] at hq
      exact .inr ⟨hqp, hq⟩
  refine ⟨fun q d hq => ?_, fun q r d hq hr => ?_, fun q d hq hs => ?_, fun q d hq hs => ?_,
    fun d hlt hnone => ?_, fun d hd => h.fresh d (by omega)⟩
  · rcases hcases q d hq with ⟨-, rfl⟩ | ⟨-, hq'⟩
    · exact Nat.lt_succ_self _
    · exact Nat.lt_succ_of_lt (h.lt q d hq')
  · rcases hcases q d hq with ⟨rfl, rfl⟩ | ⟨-, hq'⟩
    · rcases hcases r _ hr with ⟨rfl, -⟩ | ⟨-, hr'⟩
      · rfl
      · exact absurd (h.lt r _ hr') (Nat.lt_irrefl _)
    · rcases hcases r d hr with ⟨-, rfl⟩ | ⟨-, hr'⟩
      · exact absurd (h.lt q _ hq') (Nat.lt_irrefl _)
      · exact h.unique q r d hq' hr'
  · rcases hcases q d hq with ⟨-, rfl⟩ | ⟨hne, hq'⟩
    · exact h.fresh _ (Nat.le_refl _)
    · exact h.unspent q d hq' fun hq => hs ⟨hne, hq⟩
  · rcases hcases q d hq with ⟨rfl, -⟩ | ⟨-, hq'⟩
    · exact absurd rfl hs.1
    · exact h.used q d hq' hs.2
  · have hne : d ≠ next := by
      rintro rfl
      exact hnone p (Function.update_self p _ _)
    -- the thing may have been the last one in the place
    by_cases hheld : holds p = some d
    · exact h.used p d hheld (hp d hheld)
    · refine h.settled d (by omega) fun q hq => ?_
      have hqp : q ≠ p := by
        rintro rfl
        exact hheld hq
      exact hnone q (by rw [Function.update_of_ne hqp]; exact hq)

/-- The thing in a place is used up. -/
theorem spend (h : Custody holds spent next count) (hp : holds p = some d) (hs : ¬ spent p) :
    Custody holds (fun q => q = p ∨ spent q) next (Function.update count d (count d + 1)) := by
  have hcount : ∀ q e, holds q = some e → q ≠ p → Function.update count d (count d + 1) e =
      count e := by
    intro q e hq hne
    refine Function.update_of_ne (fun he => hne ?_) _ _
    exact h.unique q p d (he ▸ hq) hp
  have hnow : Function.update count d (count d + 1) d = 1 := by
    rw [Function.update_self, h.unspent p d hp hs]
  refine ⟨h.lt, h.unique, fun q e hq hns => ?_, fun q e hq hsq => ?_, fun e hlt hnone => ?_,
    fun e he => ?_⟩
  · rw [hcount q e hq fun hqp => hns (.inl hqp)]
    exact h.unspent q e hq fun hsq => hns (.inr hsq)
  · by_cases hqp : q = p
    · subst hqp
      obtain rfl : d = e := Option.some.inj (hp.symm.trans hq)
      exact hnow
    · rw [hcount q e hq hqp]
      exact h.used q e hq (hsq.resolve_left hqp)
  · have hne : e ≠ d := by
      rintro rfl
      exact hnone p hp
    rw [Function.update_of_ne hne]
    exact h.settled e hlt hnone
  · have hne : e ≠ d := by
      rintro rfl
      exact absurd (h.lt p e hp) (Nat.not_lt.2 he)
    rw [Function.update_of_ne hne]
    exact h.fresh e he

/-- A place whose thing is used up is emptied. -/
theorem empties (h : Custody holds spent next count) (hp : ∀ d, holds p = some d → spent p) :
    Custody (Function.update holds p none) spent next count := by
  have hcases : ∀ q d, Function.update holds p none q = some d → holds q = some d := by
    intro q d hq
    by_cases hqp : q = p
    · subst hqp
      rw [Function.update_self] at hq
      cases hq
    · rw [Function.update_of_ne hqp] at hq
      exact hq
  refine ⟨fun q d hq => h.lt q d (hcases q d hq),
    fun q r d hq hr => h.unique q r d (hcases q d hq) (hcases r d hr),
    fun q d hq hs => h.unspent q d (hcases q d hq) hs,
    fun q d hq hs => h.used q d (hcases q d hq) hs, fun d hlt hnone => ?_, h.fresh⟩
  by_cases hheld : holds p = some d
  · exact h.used p d hheld (hp d hheld)
  · refine h.settled d hlt fun q hq => ?_
    have hqp : q ≠ p := by
      rintro rfl
      exact hheld hq
    exact hnone q (by rw [Function.update_of_ne hqp]; exact hq)

/-- The thing in a place is used up, and leaves it. -/
theorem discard (h : Custody holds spent next count) (hp : holds p = some d) (hs : ¬ spent p) :
    Custody (Function.update holds p none) spent next (Function.update count d (count d + 1)) := by
  refine ((h.spend hp hs).empties fun _ _ => .inl rfl).congr (fun _ => rfl) fun q hq => ?_
  have hqp : q ≠ p := by
    rintro rfl
    exact hq (Function.update_self _ _ _)
  exact ⟨.inr, fun hor => hor.resolve_left hqp⟩

/-- A thing goes to a place whose thing, if it had one, is used up. -/
theorem move (h : Custody holds spent next count) (hne : p ≠ q) (hp : holds p = some d)
    (hs : ¬ spent p) (hq : ∀ d, holds q = some d → spent q) :
    Custody (Function.update (Function.update holds p none) q (some d)) (fun r => r ≠ q ∧ spent r)
      next count := by
  have hcases : ∀ r e, Function.update (Function.update holds p none) q (some d) r = some e →
      (r = q ∧ e = d) ∨ (r ≠ q ∧ r ≠ p ∧ holds r = some e) := by
    intro r e hr
    by_cases hrq : r = q
    · subst hrq
      rw [Function.update_self] at hr
      exact .inl ⟨rfl, (Option.some.inj hr).symm⟩
    · rw [Function.update_of_ne hrq] at hr
      by_cases hrp : r = p
      · subst hrp
        rw [Function.update_self] at hr
        cases hr
      · rw [Function.update_of_ne hrp] at hr
        exact .inr ⟨hrq, hrp, hr⟩
  refine ⟨fun r e hr => ?_, fun r t e hr ht => ?_, fun r e hr hsr => ?_, fun r e hr hsr => ?_,
    fun e hlt hnone => ?_, h.fresh⟩
  · rcases hcases r e hr with ⟨-, rfl⟩ | ⟨-, -, hr'⟩
    · exact h.lt p _ hp
    · exact h.lt r e hr'
  · rcases hcases r e hr with ⟨rfl, rfl⟩ | ⟨-, hrp, hr'⟩
    · rcases hcases t _ ht with ⟨rfl, -⟩ | ⟨-, htp, ht'⟩
      · rfl
      · exact absurd (h.unique t p _ ht' hp) htp
    · rcases hcases t e ht with ⟨-, rfl⟩ | ⟨-, -, ht'⟩
      · exact absurd (h.unique r p _ hr' hp) hrp
      · exact h.unique r t e hr' ht'
  · rcases hcases r e hr with ⟨-, rfl⟩ | ⟨hrq, -, hr'⟩
    · exact h.unspent p _ hp hs
    · exact h.unspent r e hr' fun hsr' => hsr ⟨hrq, hsr'⟩
  · rcases hcases r e hr with ⟨rfl, -⟩ | ⟨-, -, hr'⟩
    · exact absurd rfl hsr.1
    · exact h.used r e hr' hsr.2
  · have hed : e ≠ d := by
      rintro rfl
      exact hnone q (Function.update_self _ _ _)
    by_cases hheld : holds q = some e
    · exact h.used q e hheld (hq e hheld)
    · refine h.settled e hlt fun r hr => ?_
      have hrq : r ≠ q := by
        rintro rfl
        exact hheld hr
      have hrp : r ≠ p := by
        rintro rfl
        exact hed (Option.some.inj (hr.symm.trans hp))
      exact hnone r (by rw [Function.update_of_ne hrq, Function.update_of_ne hrp]; exact hr)

end Custody

end Lib
