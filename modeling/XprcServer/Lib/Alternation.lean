import Mathlib.Data.List.Basic
import Mathlib.Data.List.Chain

/-!
# Opening and closing in turn

A resource that is opened and closed again and again, such as a key that is pressed and released,
is used properly if the two actions alternate and the first one opens.

* `Alternating` : the actions alternate, starting with `opens`;
* `Alternating.opens`, `Alternating.closes` : which action may follow;
* `Alternating.count_eq` : what is closed in the end was closed as often as it was opened.
-/

namespace Lib

/-- The two actions on a resource. -/
inductive Bracket where
  | opens
  | closes
  deriving DecidableEq, Repr

/-- The actions alternate, and the first one opens. -/
def Alternating (actions : List Bracket) : Prop :=
  actions.IsChain (· ≠ ·) ∧ actions.head? ≠ some .closes

instance (actions : List Bracket) : Decidable (Alternating actions) :=
  inferInstanceAs (Decidable (_ ∧ _))

/-- The last action opened the resource. -/
def IsOpen (actions : List Bracket) : Prop := actions.getLast? = some .opens

instance (actions : List Bracket) : Decidable (IsOpen actions) :=
  inferInstanceAs (Decidable (_ = _))

variable {actions : List Bracket}

@[simp] theorem alternating_nil : Alternating [] := ⟨.nil, by simp⟩

@[simp] theorem isOpen_nil : ¬ IsOpen [] := by simp [IsOpen]

@[simp] theorem isOpen_concat_opens : IsOpen (actions ++ [.opens]) := by simp [IsOpen]

@[simp] theorem isOpen_concat_closes : ¬ IsOpen (actions ++ [.closes]) := by simp [IsOpen]

/-- What is not open may be opened. -/
theorem Alternating.opens (h : Alternating actions) (hopen : ¬ IsOpen actions) :
    Alternating (actions ++ [.opens]) := by
  refine ⟨List.isChain_append.2 ⟨h.1, .singleton _, ?_⟩, ?_⟩
  · intro last hlast next hnext
    obtain rfl : Bracket.opens = next := by simpa using hnext
    rintro rfl
    exact hopen hlast
  · cases actions with
    | nil => simp
    | cons first rest => simpa using h.2

theorem Alternating.closes (h : Alternating actions) (hopen : IsOpen actions) :
    Alternating (actions ++ [.closes]) := by
  refine ⟨List.isChain_append.2 ⟨h.1, .singleton _, ?_⟩, ?_⟩
  · intro last hlast next hnext
    obtain rfl : Bracket.closes = next := by simpa using hnext
    rintro rfl
    unfold IsOpen at hopen
    rw [hopen] at hlast
    cases hlast
  · cases actions with
    | nil => exact absurd hopen isOpen_nil
    | cons first rest => simpa using h.2

/-- One more opening than closings while the resource is open, and as many otherwise. -/
theorem Alternating.count_opens (h : Alternating actions) :
    actions.count .opens = actions.count .closes + if IsOpen actions then 1 else 0 := by
  induction actions using List.reverseRecOn with
  | nil => simp
  | append_singleton init last ih =>
    have hinit : Alternating init := by
      refine ⟨(List.isChain_append.1 h.1).1, ?_⟩
      cases init with
      | nil => simp
      | cons first rest => simpa using h.2
    have hlast : last = .opens ↔ ¬ IsOpen init := by
      -- the last action differs from the one before, and the first one of all opens
      cases hprev : init.getLast? with
      | none =>
        obtain rfl : init = [] := List.getLast?_eq_none_iff.1 hprev
        have hne : last ≠ .closes := by simpa using h.2
        cases last with
        | opens => simp
        | closes => exact absurd rfl hne
      | some prev =>
        have hne : prev ≠ last := (List.isChain_append.1 h.1).2.2 prev hprev last (by simp)
        unfold IsOpen
        rw [hprev]
        cases prev <;> cases last <;> simp_all
    have hcount := ih hinit
    cases last with
    | opens =>
      have hclosed : ¬ IsOpen init := hlast.1 rfl
      simp [hclosed] at hcount
      simp [hcount]
    | closes =>
      have hopen : IsOpen init := by simpa using hlast
      simp [hopen] at hcount
      simp [hcount]

/-- What is closed was closed as often as it was opened. -/
theorem Alternating.count_eq (h : Alternating actions) (hclosed : ¬ IsOpen actions) :
    actions.count .opens = actions.count .closes := by
  rw [h.count_opens, if_neg hclosed, Nat.add_zero]

end Lib
