import Mathlib.Data.List.Basic

/-!
# State-passing programs that log operations

A `Logged σ ω α` is a program that reads and changes a state `σ`, returns an `α`, and emits a list
of operations `ω` on the way: what the program does to its environment (for us: the locks it takes
and releases) is kept apart from the state it computes with.

`run_bind` takes a program apart.  `Keeps` is the frame rule for a reflexive and transitive relation
on states and programs that emit nothing, `Leads` the one for all programs.
-/

namespace Lib

/-- What a program leaves: its result, the state, and the operations it emitted. -/
structure Outcome (σ ω α : Type) where
  val : α
  state : σ
  ops : List ω

namespace Outcome

variable {σ ω α : Type}

/-- The outcome of a program that ran after operations `os` had been emitted. -/
def after (r : Outcome σ ω α) (os : List ω) : Outcome σ ω α := ⟨r.val, r.state, os ++ r.ops⟩

@[simp] theorem after_val (r : Outcome σ ω α) (os : List ω) : (r.after os).val = r.val := rfl

@[simp] theorem after_state (r : Outcome σ ω α) (os : List ω) : (r.after os).state = r.state := rfl

@[simp] theorem after_ops (r : Outcome σ ω α) (os : List ω) : (r.after os).ops = os ++ r.ops := rfl

@[simp] theorem after_mk (a : α) (s : σ) (os os' : List ω) :
    (⟨a, s, os⟩ : Outcome σ ω α).after os' = ⟨a, s, os' ++ os⟩ := rfl

@[simp] theorem after_nil (r : Outcome σ ω α) : r.after [] = r := rfl

end Outcome

/-- Programs on states `σ` that emit operations `ω`. -/
def Logged (σ ω α : Type) : Type := σ → Outcome σ ω α

namespace Logged

variable {σ ω α β : Type}

/-- Run a program. -/
def run (p : Logged σ ω α) (s : σ) : Outcome σ ω α := p s

instance : Monad (Logged σ ω) where
  pure a s := ⟨a, s, []⟩
  bind p f s :=
    let r := p.run s
    let r' := (f r.val).run r.state
    ⟨r'.val, r'.state, r.ops ++ r'.ops⟩

/-- A value read off the state. -/
def read (f : σ → α) : Logged σ ω α := fun s => ⟨f s, s, []⟩

/-- Change the state. -/
def update (f : σ → σ) : Logged σ ω Unit := fun s => ⟨(), f s, []⟩

/-- Emit an operation. -/
def emit (o : ω) : Logged σ ω Unit := fun s => ⟨(), s, [o]⟩

@[simp] theorem run_pure (a : α) (s : σ) : (pure a : Logged σ ω α).run s = ⟨a, s, []⟩ := rfl

@[simp] theorem run_read (f : σ → α) (s : σ) : (read f : Logged σ ω α).run s = ⟨f s, s, []⟩ := rfl

@[simp] theorem run_update (f : σ → σ) (s : σ) :
    (update f : Logged σ ω Unit).run s = ⟨(), f s, []⟩ := rfl

@[simp] theorem run_emit (o : ω) (s : σ) : (emit o : Logged σ ω Unit).run s = ⟨(), s, [o]⟩ := rfl

@[simp] theorem run_bind (p : Logged σ ω α) (f : α → Logged σ ω β) (s : σ) :
    (p >>= f).run s = ((f (p.run s).val).run (p.run s).state).after (p.run s).ops := rfl

@[simp] theorem run_ite (c : Prop) [Decidable c] (p q : Logged σ ω α) (s : σ) :
    (if c then p else q).run s = if c then p.run s else q.run s := by
  split_ifs <;> rfl

/-- The program emits nothing and keeps `R` between the state before and the state after. -/
def Keeps (R : σ → σ → Prop) (p : Logged σ ω α) : Prop :=
  ∀ s, (p.run s).ops = [] ∧ R s (p.run s).state

namespace Keeps

variable {R : σ → σ → Prop}

theorem pure [Std.Refl R] (a : α) : Keeps R (Pure.pure a : Logged σ ω α) :=
  fun s => ⟨rfl, Std.Refl.refl s⟩

theorem read [Std.Refl R] (f : σ → α) : Keeps R (Logged.read f : Logged σ ω α) :=
  fun s => ⟨rfl, Std.Refl.refl s⟩

theorem update {f : σ → σ} (h : ∀ s, R s (f s)) : Keeps R (Logged.update f : Logged σ ω Unit) :=
  fun s => ⟨rfl, h s⟩

theorem bind [IsTrans σ R] {p : Logged σ ω α} {f : α → Logged σ ω β} (hp : Keeps R p)
    (hf : ∀ a, Keeps R (f a)) : Keeps R (p >>= f) := by
  intro s
  obtain ⟨ho, hs⟩ := hp s
  obtain ⟨ho', hs'⟩ := hf (p.run s).val (p.run s).state
  exact ⟨by simp [ho, ho'], IsTrans.trans _ _ _ hs hs'⟩

theorem mono {R' : σ → σ → Prop} (hR : ∀ s s', R s s' → R' s s') {p : Logged σ ω α}
    (hp : Keeps R p) : Keeps R' p :=
  fun s => ⟨(hp s).1, hR _ _ (hp s).2⟩

theorem ite {c : Prop} [Decidable c] {p q : Logged σ ω α} (hp : Keeps R p) (hq : Keeps R q) :
    Keeps R (if c then p else q) := by
  split_ifs
  · exact hp
  · exact hq

end Keeps

/-- The program keeps `R` between the state before and the state after, whatever it emits. -/
def Leads (R : σ → σ → Prop) (p : Logged σ ω α) : Prop := ∀ s, R s (p.run s).state

theorem Keeps.leads {R : σ → σ → Prop} {p : Logged σ ω α} (hp : Keeps R p) : Leads R p :=
  fun s => (hp s).2

namespace Leads

variable {R : σ → σ → Prop}

theorem pure [Std.Refl R] (a : α) : Leads R (Pure.pure a : Logged σ ω α) :=
  fun s => Std.Refl.refl s

theorem read [Std.Refl R] (f : σ → α) : Leads R (Logged.read f : Logged σ ω α) :=
  fun s => Std.Refl.refl s

theorem update {f : σ → σ} (h : ∀ s, R s (f s)) : Leads R (Logged.update f : Logged σ ω Unit) := h

theorem bind [IsTrans σ R] {p : Logged σ ω α} {f : α → Logged σ ω β} (hp : Leads R p)
    (hf : ∀ a, Leads R (f a)) : Leads R (p >>= f) :=
  fun s => IsTrans.trans _ _ _ (hp s) (hf (p.run s).val (p.run s).state)

theorem mono {R' : σ → σ → Prop} (hR : ∀ s s', R s s' → R' s s') {p : Logged σ ω α}
    (hp : Leads R p) : Leads R' p :=
  fun s => hR _ _ (hp s)

theorem ite {c : Prop} [Decidable c] {p q : Logged σ ω α} (hp : Leads R p) (hq : Leads R q) :
    Leads R (if c then p else q) := by
  split_ifs
  · exact hp
  · exact hq

end Leads

end Logged

end Lib
