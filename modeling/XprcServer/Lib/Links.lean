import Mathlib.Data.List.Perm.Subperm
import Mathlib.Data.List.Range
import Mathlib.Logic.Function.Basic

/-!
# Linked lists in memory

Cells are found at addresses `α`; a pointer is an address or NULL.  `Linked next p l` says that
following `next` from the pointer `p` leads through the addresses `l` and then to NULL, and
`DoublyLinked` that a second link leads back the same way.

* `linked_iff` : each link leads to the head of what is left;
* `Linked.nodup` : a list that ends does not meet an address twice;
* `DoublyLinked.append`, `DoublyLinked.erase` : what the usual assignments of links do to the list.
-/

namespace Lib

variable {α : Type}

/-- Following `next` from a pointer leads through these addresses, and then to NULL. -/
def Linked (next : α → Option α) : Option α → List α → Prop
  | p, [] => p = none
  | p, a :: l => p = some a ∧ Linked next (next a) l

/-- The addresses met by following `next` at most `fuel` times; nothing if NULL is not reached. -/
def follow (next : α → Option α) : ℕ → Option α → Option (List α)
  | _, none => some []
  | 0, some _ => none
  | fuel + 1, some a => (a :: ·) <$> follow next fuel (next a)

section

variable {next next' : α → Option α} {p p' : Option α} {l l' : List α}

@[simp] theorem linked_nil : Linked next p [] ↔ p = none := Iff.rfl

@[simp] theorem linked_cons {a : α} : Linked next p (a :: l) ↔ p = some a ∧ Linked next
    (next a) l :=
  Iff.rfl

/-- Enough rounds for a list are one for its head and enough for the rest. -/
theorem exists_fuel {a : α} {l : List α} {fuel : ℕ} (hfuel : (a :: l).length ≤ fuel) :
    ∃ k, fuel = k + 1 ∧ l.length ≤ k := by
  rw [List.length_cons] at hfuel
  exact ⟨fuel - 1, by omega, by omega⟩

theorem Linked.eq_head (h : Linked next p l) : p = l.head? := by
  cases l with
  | nil => exact h
  | cons a l => exact h.1

theorem Linked.eq_nil_iff (h : Linked next p l) : l = [] ↔ p = none := by
  rw [h.eq_head, List.head?_eq_none_iff]

/-- Following links for long enough meets exactly the addresses of the list. -/
theorem Linked.follow_eq (h : Linked next p l) {fuel : ℕ} (hfuel : l.length ≤ fuel) :
    follow next fuel p = some l := by
  induction l generalizing p fuel with
  | nil =>
    obtain rfl : p = none := h
    cases fuel <;> rfl
  | cons a l ih =>
    obtain ⟨rfl, hrest⟩ := h
    obtain ⟨fuel, rfl, hle⟩ := exists_fuel hfuel
    rw [follow, ih hrest hle]
    rfl

/-- Each link leads to the head of what is left of the list. -/
theorem linked_iff :
    Linked next p l ↔ p = l.head? ∧ ∀ l₁ a l₂, l = l₁ ++ a :: l₂ → next a = l₂.head? := by
  induction l generalizing p with
  | nil => simp
  | cons b l ih =>
    rw [linked_cons, ih, List.head?_cons]
    refine and_congr_right fun _ => ⟨?_, fun h => ?_⟩
    · rintro ⟨hhead, hrest⟩ l₁ a l₂ heq
      cases l₁ with
      | nil =>
        obtain ⟨rfl, rfl⟩ := List.cons.inj heq
        exact hhead
      | cons c l₁ => exact hrest l₁ a l₂ (List.cons.inj heq).2
    · exact ⟨h [] b l rfl, fun l₁ a l₂ heq => h (b :: l₁) a l₂ (congrArg (b :: ·) heq)⟩

theorem Linked.next_eq {l₁ l₂ : List α} {a : α} (h : Linked next p (l₁ ++ a :: l₂)) :
    next a = l₂.head? := (linked_iff.1 h).2 l₁ a l₂ rfl

/-- A link from within a list leads to the rest of it. -/
theorem Linked.behind {l₁ l₂ : List α} {a : α} (h : Linked next p (l₁ ++ a :: l₂)) :
    Linked next (next a) l₂ := by
  induction l₁ generalizing p with
  | nil => exact h.2
  | cons b l₁ ih => exact ih h.2

theorem Linked.unique (h : Linked next p l) (h' : Linked next p l') : l = l' := by
  induction l generalizing p l' with
  | nil => exact (h'.eq_nil_iff.2 h).symm
  | cons a l ih =>
    obtain ⟨rfl, hrest⟩ := h
    cases l' with
    | nil => cases h'
    | cons b l' =>
      obtain ⟨hab, hrest'⟩ := h'
      obtain rfl : a = b := Option.some.inj hab
      rw [ih hrest hrest']

/-- A list that ends does not meet an address twice: what is left behind both would be the same. -/
theorem Linked.nodup (h : Linked next p l) : l.Nodup := by
  induction l generalizing p with
  | nil => exact List.nodup_nil
  | cons a l ih =>
    refine List.nodup_cons.2 ⟨fun ha => ?_, ih h.2⟩
    obtain ⟨l₁, l₂, rfl⟩ := List.append_of_mem ha
    have hsame := congrArg List.length (h.2.unique (h.2.behind))
    simp only [List.length_append, List.length_cons] at hsame
    omega

/-- Links from outside of the list do not matter. -/
theorem Linked.congr (h : Linked next p l) (hnext : ∀ a ∈ l, next' a = next a) :
    Linked next' p l := by
  induction l generalizing p with
  | nil => exact h
  | cons a l ih =>
    refine ⟨h.1, ?_⟩
    rw [hnext a List.mem_cons_self]
    exact ih h.2 fun b hb => hnext b (List.mem_cons_of_mem a hb)

/-- The last link is set to a new address. -/
theorem Linked.append [DecidableEq α] (h : Linked next p l) {b : α}
    (hp : p' = if l = [] then some b else p)
    (hlast : ∀ a ∈ l, next' a = if l.getLast? = some a then some b else next a)
    (hb : next' b = none) : Linked next' p' (l ++ [b]) := by
  induction l generalizing p p' with
  | nil =>
    rw [if_pos rfl] at hp
    exact ⟨hp, hb⟩
  | cons a l ih =>
    rw [if_neg (List.cons_ne_nil a l)] at hp
    refine ⟨hp.trans h.1, ih h.2 ?_ fun c hc => ?_⟩
    · rw [hlast a List.mem_cons_self]
      cases l with
      | nil => rw [if_pos rfl, if_pos List.getLast?_singleton]
      | cons c l =>
        have hne : (a :: c :: l).getLast? ≠ some a := by
          rw [List.getLast?_cons_cons]
          intro hlast
          exact (List.nodup_cons.1 h.nodup).1 (List.mem_of_getLast? hlast)
        rw [if_neg hne, if_neg (List.cons_ne_nil c l)]
    · rw [hlast c (List.mem_cons_of_mem a hc)]
      cases l with
      | nil => cases hc
      | cons d l => rw [List.getLast?_cons_cons]

/-- The link before an address is set to the one behind it. -/
theorem Linked.erase [DecidableEq α] {l₁ l₂ : List α} {a : α} (h : Linked next p (l₁ ++ a :: l₂))
    (hp : p' = if l₁ = [] then next a else p)
    (hbefore : ∀ c ∈ l₁, next' c = if l₁.getLast? = some c then next a else next c)
    (hbehind : ∀ c ∈ l₂, next' c = next c) : Linked next' p' (l₁ ++ l₂) := by
  induction l₁ generalizing p p' with
  | nil =>
    rw [if_pos rfl] at hp
    rw [hp]
    exact h.2.congr hbehind
  | cons b l₁ ih =>
    rw [if_neg (List.cons_ne_nil b l₁)] at hp
    refine ⟨hp.trans h.1, ih h.2 ?_ fun c hc => ?_⟩
    · rw [hbefore b List.mem_cons_self]
      cases l₁ with
      | nil => rw [if_pos rfl, if_pos List.getLast?_singleton]
      | cons c l₁ =>
        have hne : (b :: c :: l₁).getLast? ≠ some b := by
          rw [List.getLast?_cons_cons]
          intro hlast
          exact (List.nodup_cons.1 h.nodup).1 (List.mem_append_left _ (List.mem_of_getLast? hlast))
        rw [if_neg hne, if_neg (List.cons_ne_nil c l₁)]
    · rw [hbefore c (List.mem_cons_of_mem b hc)]
      cases l₁ with
      | nil => cases hc
      | cons d l₁ => rw [List.getLast?_cons_cons]

/-- A list of addresses below a bound is not longer than it. -/
theorem Linked.length_le {next : ℕ → Option ℕ} {p : Option ℕ} {l : List ℕ} {n : ℕ}
    (h : Linked next p l) (hlt : ∀ a ∈ l, a < n) : l.length ≤ n := by
  have hsub : l ⊆ List.range n := fun a ha => List.mem_range.2 (hlt a ha)
  simpa using (h.nodup.subperm hsub).length_le

end

/-! ### Links in both directions -/

/-- `next` leads from the first to the last address, and `prev` back the same way. -/
structure DoublyLinked (next prev : α → Option α) (first last : Option α) (l : List α) : Prop where
  forward : Linked next first l
  backward : Linked prev last l.reverse

section

variable {next prev next' prev' : α → Option α} {first last first' last' : Option α} {l : List α}

theorem doublyLinked_nil : DoublyLinked next prev none none [] := ⟨rfl, rfl⟩

/-- Read backwards, the list is linked the other way round. -/
theorem DoublyLinked.symm (h : DoublyLinked next prev first last l) :
    DoublyLinked prev next last first l.reverse :=
  ⟨h.backward, by rw [List.reverse_reverse]; exact h.forward⟩

theorem DoublyLinked.first_eq (h : DoublyLinked next prev first last l) : first = l.head? :=
  h.forward.eq_head

theorem DoublyLinked.last_eq (h : DoublyLinked next prev first last l) : last = l.getLast? := by
  rw [h.backward.eq_head, List.head?_reverse]

theorem DoublyLinked.next_eq {l₁ l₂ : List α} {a : α}
    (h : DoublyLinked next prev first last (l₁ ++ a :: l₂)) : next a = l₂.head? := h.forward.next_eq

theorem DoublyLinked.prev_eq {l₁ l₂ : List α} {a : α}
    (h : DoublyLinked next prev first last (l₁ ++ a :: l₂)) : prev a = l₁.getLast? := by
  have hback := h.symm
  rw [List.reverse_append, List.reverse_cons, List.append_assoc, List.singleton_append] at hback
  exact hback.next_eq.trans List.head?_reverse

theorem DoublyLinked.congr (h : DoublyLinked next prev first last l)
    (hnext : ∀ a ∈ l, next' a = next a) (hprev : ∀ a ∈ l, prev' a = prev a) :
    DoublyLinked next' prev' first last l :=
  ⟨h.forward.congr hnext, h.backward.congr fun a ha => hprev a (List.mem_reverse.1 ha)⟩

variable [DecidableEq α]

/-- A new address behind the last one: its links and that of the last one are set. -/
theorem DoublyLinked.append (h : DoublyLinked next prev first last l) {b : α}
    (hnew : next' b = none ∧ prev' b = last)
    (hnext : ∀ a ∈ l, next' a = if last = some a then some b else next a)
    (hprev : ∀ a ∈ l, prev' a = prev a)
    (hfirst : first' = if first = none then some b else first) (hlast : last' = some b) :
    DoublyLinked next' prev' first' last' (l ++ [b]) where
  forward := by
    refine h.forward.append (hfirst.trans ?_) (fun a ha => ?_) hnew.1
    · simp only [h.forward.eq_nil_iff]
    · rw [hnext a ha, h.last_eq]
  backward := by
    rw [List.reverse_append]
    refine ⟨hlast, ?_⟩
    rw [hnew.2]
    exact h.backward.congr fun a ha => hprev a (List.mem_reverse.1 ha)

/-- The links of the one direction when an address is taken out. -/
theorem DoublyLinked.erase_forward {a : α} {l₁ l₂ : List α}
    (h : DoublyLinked next prev first last (l₁ ++ a :: l₂))
    (hnext : ∀ c ∈ l₁ ++ l₂, next' c = if prev a = some c then next a else next c)
    (hfirst : first' = if first = some a then next a else first) :
    Linked next' first' (l₁ ++ l₂) := by
  obtain ⟨-, hnodup, hdisjoint⟩ := List.nodup_append.1 h.forward.nodup
  refine h.forward.erase (hfirst.trans ?_) (fun c hc => ?_) fun c hc => ?_
  · rw [h.first_eq]
    cases l₁ with
    | nil => simp
    | cons b l₁ =>
      have hne : b ≠ a := hdisjoint b List.mem_cons_self a List.mem_cons_self
      simp [hne]
  · rw [hnext c (List.mem_append_left l₂ hc), h.prev_eq]
  · have hne : l₁.getLast? ≠ some c := fun hlast =>
      hdisjoint c (List.mem_of_getLast? hlast) c (List.mem_cons_of_mem a hc) rfl
    rw [hnext c (List.mem_append_right l₁ hc), h.prev_eq, if_neg hne]

/-- An address is taken out: its neighbours, or the ends, are linked to each other. -/
theorem DoublyLinked.erase {a : α} {l₁ l₂ : List α}
    (h : DoublyLinked next prev first last (l₁ ++ a :: l₂))
    (hnext : ∀ c ∈ l₁ ++ l₂, next' c = if prev a = some c then next a else next c)
    (hprev : ∀ c ∈ l₁ ++ l₂, prev' c = if next a = some c then prev a else prev c)
    (hfirst : first' = if first = some a then next a else first)
    (hlast : last' = if last = some a then prev a else last) :
    DoublyLinked next' prev' first' last' (l₁ ++ l₂) where
  forward := h.erase_forward hnext hfirst
  backward := by
    have hback := h.symm
    rw [List.reverse_append, List.reverse_cons, List.append_assoc, List.singleton_append] at hback
    rw [List.reverse_append]
    refine hback.erase_forward (fun c hc => hprev c ?_) hlast
    rwa [← List.reverse_append, List.mem_reverse] at hc

end

end Lib
