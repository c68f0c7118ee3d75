import XprcServer.Commands.Registration
import XprcServer.Lib.System

/-!
# The life-cycle of CMRG commands

CMRG commands are created, initialised, called by X-Plane and terminated in any order, and the
maintenance of the plugin deregisters the X-Plane commands they dropped.  `Cmrg.Sound` says what
holds of the registry between these steps: every proxy in its list belongs to a command that is
alive, or was dropped after it had been registered.

* `cmrg_registry_emptied` : if no creation fails after its proxy was listed, and no command is
  terminated whose proxy is not registered, then maintenance empties the registry once all commands
  are terminated;
* `cmrg_registry_stuck` : a command that is terminated before its first flight loop leaves a proxy
  that stays in the list.
-/

namespace XprcServer

open Lib
open Logged (Leads)

namespace Cmrg

open Session X Xpcommands

/-- A command that is alive has the proxy. -/
def Owned (live : List ℕ) (m : CmrgMemory) (proxy : ℕ) : Prop :=
  ∃ ref ∈ live, (m.cmrg ref).bind CommandCmrg.xpcmd = some proxy

/-- X-Plane has the handler of the proxy. -/
def Handled (handlers : List CommandHandler) (proxy : ℕ) (found : Xpcommand) : Prop :=
  ∃ xpRef, found.xpRef = some xpRef ∧ ⟨xpRef, found.phase, proxy⟩ ∈ handlers

/-- What the state of a proxy means. -/
def Fits (live : List ℕ) (s : XpWorld) (proxy : ℕ) (found : Xpcommand) : Prop :=
  match found.state with
  | .created => Owned live s.world.memory proxy
  | .registered => Owned live s.world.memory proxy ∧ Handled s.handlers proxy found
  | .dropped => Handled s.handlers proxy found
  | .destroyed => False

/-- The handler is that of the proxy. -/
def Serving (handler : CommandHandler) (found : Xpcommand) : Prop :=
  (found.state = .registered ∨ found.state = .dropped) ∧ found.xpRef = some handler.xpRef ∧
    found.phase = handler.phase

/-- What holds of the registry and the handlers while the commands `live` are alive. -/
structure Sound (live : List ℕ) (s : XpWorld) : Prop where
  nodup : s.world.memory.commands.Nodup
  listed : ∀ a, a ∈ s.world.memory.commands ↔ (s.world.memory.xpcommands a).isSome
  fits : ∀ a found, s.world.memory.xpcommands a = some found → Fits live s a found
  handled : ∀ handler ∈ s.handlers, ∃ found,
    s.world.memory.xpcommands handler.proxy = some found ∧ Serving handler found
  once : s.handlers.Nodup
  fresh : ∀ a, s.world.memory.next ≤ a →
    s.world.memory.xpcommands a = none ∧ s.world.memory.cmrg a = none

/-! ### Changes -/

/-- Nothing happened to the memory of the commands and to the handlers. -/
def Same (s s' : XpWorld) : Prop :=
  s'.world.memory = s.world.memory ∧ s'.handlers = s.handlers

/-- Nothing happened to the registry, and no command got or lost a proxy. -/
structure Tame (w w' : World CmrgMemory) : Prop where
  xpcommands : w'.memory.xpcommands = w.memory.xpcommands
  commands : w'.memory.commands = w.memory.commands
  next : w.memory.next ≤ w'.memory.next
  cmrg : ∀ c, (w'.memory.cmrg c).map CommandCmrg.xpcmd = (w.memory.cmrg c).map CommandCmrg.xpcmd

instance : Std.Refl Tame := ⟨fun _ => ⟨rfl, rfl, Nat.le_refl _, fun _ => rfl⟩⟩

instance : IsTrans (World CmrgMemory) Tame :=
  ⟨fun _ _ _ h h' => ⟨h'.xpcommands.trans h.xpcommands, h'.commands.trans h.commands,
    Nat.le_trans h.next h'.next, fun c => (h'.cmrg c).trans (h.cmrg c)⟩⟩

theorem tame_of_memory {w w' : World CmrgMemory} (h : w'.memory = w.memory) : Tame w w' :=
  ⟨by rw [h], by rw [h], Nat.le_of_eq (by rw [h]), fun _ => by rw [h]⟩

section

variable {live : List ℕ} {s s' : XpWorld} {a : ℕ} {found : Xpcommand}

theorem Owned.congr {m m' : CmrgMemory}
    (h : ∀ c, (m'.cmrg c).map CommandCmrg.xpcmd = (m.cmrg c).map CommandCmrg.xpcmd) :
    Owned live m a → Owned live m' a := by
  rintro ⟨ref, href, hown⟩
  refine ⟨ref, href, ?_⟩
  have := h ref
  revert this hown
  cases m.cmrg ref with
  | none => intro hown; cases hown
  | some c =>
    intro hown hmap
    obtain ⟨c', hc', hx⟩ := Option.map_eq_some_iff.1 hmap
    rw [hc', Option.bind_some, hx]
    exact hown

theorem Fits.congr {live' : List ℕ}
    (hown : Owned live s.world.memory a → Owned live' s'.world.memory a)
    (hhandled : Handled s.handlers a found → Handled s'.handlers a found) :
    Fits live s a found → Fits live' s' a found := by
  unfold Fits
  cases found.state with
  | created => exact hown
  | registered => exact fun h => ⟨hown h.1, hhandled h.2⟩
  | dropped => exact hhandled
  | destroyed => exact fun h => h

theorem Sound.same (h : Sound live s) (hs : Same s s') : Sound live s' := by
  obtain ⟨hmemory, hhandlers⟩ := hs
  constructor
  · rw [hmemory]; exact h.nodup
  · rw [hmemory]; exact h.listed
  · intro b p hp
    rw [hmemory] at hp
    refine (h.fits b p hp).congr ?_ ?_
    · rw [hmemory]; exact fun h => h
    · rw [hhandlers]; exact fun h => h
  · rw [hmemory, hhandlers]; exact h.handled
  · rw [hhandlers]; exact h.once
  · rw [hmemory]; exact h.fresh

theorem Sound.tame (h : Sound live s) (ht : Tame s.world s'.world)
    (hhandlers : s'.handlers = s.handlers) : Sound live s' := by
  constructor
  · rw [ht.commands]; exact h.nodup
  · rw [ht.commands, ht.xpcommands]; exact h.listed
  · intro b p hp
    rw [ht.xpcommands] at hp
    exact (h.fits b p hp).congr (Owned.congr ht.cmrg) (by rw [hhandlers]; exact fun h => h)
  · rw [ht.xpcommands, hhandlers]; exact h.handled
  · rw [hhandlers]; exact h.once
  · intro b hb
    replace hb := Nat.le_trans ht.next hb
    refine ⟨by rw [ht.xpcommands]; exact (h.fresh b hb).1, ?_⟩
    have := ht.cmrg b
    rw [(h.fresh b hb).2, Option.map_none, Option.map_eq_none_iff] at this
    exact this

/-- One proxy is changed or freed, and with it its handler. -/
theorem Sound.change {q : Option Xpcommand} (h : Sound live s) (ha : a < s.world.memory.next)
    (hx : s'.world.memory.xpcommands = Function.update s.world.memory.xpcommands a q)
    (hcmrg : s'.world.memory.cmrg = s.world.memory.cmrg)
    (hnext : s'.world.memory.next = s.world.memory.next)
    (hnodup : s'.world.memory.commands.Nodup)
    (hlisted : ∀ b, b ∈ s'.world.memory.commands ↔ (s'.world.memory.xpcommands b).isSome)
    (hothers : ∀ handler : CommandHandler, handler.proxy ≠ a →
      (handler ∈ s'.handlers ↔ handler ∈ s.handlers))
    (hserving : ∀ handler ∈ s'.handlers, handler.proxy = a → ∃ p, q = some p ∧ Serving handler p)
    (honce : s'.handlers.Nodup) (hfits : ∀ p, q = some p → Fits live s' a p) : Sound live s' := by
  have hown : ∀ b, Owned live s.world.memory b → Owned live s'.world.memory b := fun b =>
    Owned.congr fun c => by rw [hcmrg]
  refine ⟨hnodup, hlisted, fun b p hp => ?_, fun handler hhandler => ?_, honce, fun b hb => ?_⟩
  · rw [hx] at hp
    by_cases hb : b = a
    · subst hb
      rw [Function.update_self] at hp
      exact hfits p hp
    · rw [Function.update_of_ne hb] at hp
      refine (h.fits b p hp).congr (hown b) ?_
      rintro ⟨xpRef, hxp, hmem⟩
      exact ⟨xpRef, hxp, (hothers _ hb).2 hmem⟩
  · rw [hx]
    by_cases hb : handler.proxy = a
    · rw [hb, Function.update_self]
      exact hserving handler hhandler hb
    · rw [Function.update_of_ne hb]
      exact h.handled handler ((hothers handler hb).1 hhandler)
  · rw [hnext] at hb
    rw [hx, hcmrg, Function.update_of_ne (by omega)]
    exact h.fresh b hb

theorem Sound.lt_next (h : Sound live s) (hp : s.world.memory.xpcommands a = some found) :
    a < s.world.memory.next := by
  by_contra hle
  rw [(h.fresh a (by omega)).1] at hp
  cases hp

theorem Sound.not_handled (h : Sound live s) (hp : s.world.memory.xpcommands a = some found)
    (hstate : found.state = .created) : ∀ handler ∈ s.handlers, handler.proxy ≠ a := by
  rintro handler hmem rfl
  obtain ⟨p, hp', hserving, -⟩ := h.handled handler hmem
  obtain rfl : found = p := Option.some.inj (hp.symm.trans hp')
  rw [hstate] at hserving
  rcases hserving with h | h <;> cases h

theorem Sound.handler_eq (h : Sound live s) (hp : s.world.memory.xpcommands a = some found)
    {xpRef : ℕ} (hxp : found.xpRef = some xpRef) {handler : CommandHandler}
    (hmem : handler ∈ s.handlers) (ha : handler.proxy = a) : handler = ⟨xpRef, found.phase, a⟩ := by
  obtain ⟨p, hp', -, hxp', hphase⟩ := h.handled handler hmem
  rw [ha] at hp'
  obtain rfl : found = p := Option.some.inj (hp.symm.trans hp')
  rw [hxp, Option.some.injEq] at hxp'
  cases handler
  simp_all

/-! ### The registry -/

/-- The registry is in order after an operation that did nothing to the commands. -/
structure Ordered (live : List ℕ) (s s' : XpWorld) : Prop where
  sound : Sound live s'
  cmrg : s'.world.memory.cmrg = s.world.memory.cmrg

theorem Ordered.between {s₁ s₂ : XpWorld} (hsame : Same s s₁) (h : Ordered live s₁ s₂)
    (hend : Same s₂ s') : Ordered live s s' :=
  ⟨h.sound.same hend, (congrArg CmrgMemory.cmrg hend.1).trans
    (h.cmrg.trans (congrArg CmrgMemory.cmrg hsame.1))⟩

theorem Sound.ordered (h : Sound live s) (hs : Same s s') : Ordered live s s' :=
  ⟨h.same hs, congrArg CmrgMemory.cmrg hs.1⟩

/-- Nothing but messages were sent. -/
structure Hushed (s s' : XpWorld) : Prop where
  world : s.world.Speaks s'.world
  handlers : s'.handlers = s.handlers

theorem Hushed.same (h : Hushed s s') : Same s s' := ⟨h.world.memory, h.handlers⟩

theorem lockedRegistry_granted {α : Type} (refused : ErrorCode → α) (body : X α)
    (h : ¬ s.world.refuses .registry) :
    ∃ s₁, Hushed s s₁ ∧ ((lockedRegistry refused body).run s).val = (body.run s₁).val ∧
      Hushed (body.run s₁).state ((lockedRegistry refused body).run s).state := by
  refine ⟨{ s with world := s.world.holding .registry }, ⟨⟨.refl, rfl, rfl, fun h => h⟩, rfl⟩,
    ?_, ?_⟩
  · simp [lockedRegistry, lockFlagged_granted h, World.holding]
  · simp only [lockedRegistry, Logged.run_bind, run_lift, lockFlagged_granted h,
      Outcome.after_state, ↓reduceIte]
    exact ⟨⟨.refl, rfl, rfl, fun h => h⟩, rfl⟩

/-- Code under the lock of the registry runs in a world that differs in nothing that matters, or not
at all. -/
theorem lockedRegistry_cases {α : Type} (refused : ErrorCode → α) (body : X α) (s : XpWorld) :
    (∃ err, err ≠ .none ∧ ((lockedRegistry refused body).run s).val = refused err ∧
      Hushed s ((lockedRegistry refused body).run s).state) ∨
    ∃ s₁, Hushed s s₁ ∧ ((lockedRegistry refused body).run s).val = (body.run s₁).val ∧
      Hushed (body.run s₁).state ((lockedRegistry refused body).run s).state := by
  by_cases h : s.world.refuses .registry
  · left
    obtain ⟨n, -, hval, hstate, -⟩ := lockFlagged_refused h
    refine ⟨_, hval, ?_, ?_⟩
    · simp [lockedRegistry, hval]
    · have hrun : ((lockedRegistry refused body).run s).state =
          { s with world := s.world.atTick n } := by
        simp [lockedRegistry, hval, hstate]
      rw [hrun]
      exact ⟨⟨.refl, rfl, rfl, fun h => h⟩, rfl⟩
  · exact .inr (lockedRegistry_granted refused body h)

@[simp] theorem run_readXpcommand (proxy : ℕ) (s : XpWorld) :
    (readXpcommand proxy).run s = ⟨s.world.memory.xpcommands proxy, s, []⟩ := rfl

@[simp] theorem run_lift_readMemory {α : Type} (f : CmrgMemory → α) (s : XpWorld) :
    (lift (readMemory f)).run s = ⟨f s.world.memory, s, []⟩ := rfl

theorem modifyXpcommand_memory {w : World CmrgMemory} {f : Xpcommand → Xpcommand}
    (hp : w.memory.xpcommands a = some found) :
    ((modifyXpcommand a f).run w).state.memory =
      { w.memory with xpcommands := Function.update w.memory.xpcommands a (some (f found)) } := by
  simp [modifyXpcommand, updateMemory, hp]

theorem Sound.listed_update (h : Sound live s) (hp : s.world.memory.xpcommands a = some found)
    (found' : Xpcommand) (b : ℕ) : b ∈ s.world.memory.commands ↔
      (Function.update s.world.memory.xpcommands a (some found') b).isSome := by
  rw [h.listed b]
  by_cases hb : b = a
  · subst hb
    simp [hp]
  · rw [Function.update_of_ne hb]

theorem registerHandler_sound {xpRef : ℕ} (h : Sound live s)
    (hp : s.world.memory.xpcommands a = some found) (hstate : found.state = .created) :
    Sound live ((registerHandler a found xpRef).run s).state := by
  have hnone := h.not_handled hp hstate
  set r := ((registerHandler a found xpRef).run s).state with hr
  have hmemory : r.world.memory = { s.world.memory with
      xpcommands := Function.update s.world.memory.xpcommands a
        (some { found with xpRef := some xpRef, state := .registered }) } := by
    simp [hr, registerHandler, registerCommandHandler, modifyXpcommand, updateMemory, hp]
  have hhandlers : r.handlers = s.handlers ++ [⟨xpRef, found.phase, a⟩] := rfl
  refine h.change (a := a) (q := some { found with xpRef := some xpRef, state := .registered })
    (h.lt_next hp) (by rw [hmemory]) (by rw [hmemory]) (by rw [hmemory])
      (by rw [hmemory]; exact h.nodup)
    ?_ ?_ ?_ ?_ ?_
  · intro b
    rw [hmemory]
    exact h.listed_update hp _ b
  · intro handler hne
    rw [hhandlers, List.mem_append, List.mem_singleton]
    refine ⟨fun hmem => hmem.resolve_right ?_, .inl⟩
    rintro rfl
    exact hne rfl
  · intro handler hmem ha
    rw [hhandlers, List.mem_append, List.mem_singleton] at hmem
    rcases hmem with hmem | rfl
    · exact absurd ha (hnone handler hmem)
    · exact ⟨_, rfl, .inl rfl, rfl, rfl⟩
  · rw [hhandlers]
    refine List.nodup_append.2 ⟨h.once, List.pairwise_singleton _ _, ?_⟩
    rintro handler hmem _ hself rfl
    exact hnone handler hmem (by rw [List.mem_singleton.1 hself])
  · rintro _ ⟨⟩
    have howned := h.fits a found hp
    rw [Fits, hstate] at howned
    refine ⟨howned.congr fun c => ?_, xpRef, rfl, ?_⟩
    · rw [hmemory]
    · rw [hhandlers]
      exact List.mem_append_right _ (List.mem_singleton.2 rfl)

/-- A proxy that could not be registered stays as it is, without a command of X-Plane. -/
theorem unfound_sound (h : Sound live s) (hp : s.world.memory.xpcommands a = some found)
    (hstate : found.state = .created) :
    Sound live
      ((lift (modifyXpcommand a fun found => { found with xpRef := none })).run s).state := by
  set r := ((lift (modifyXpcommand a fun found => { found with xpRef := none })).run s).state
      with hr
  have hmemory : r.world.memory = { s.world.memory with
      xpcommands := Function.update s.world.memory.xpcommands a
        (some { found with xpRef := none }) } := modifyXpcommand_memory hp
  refine h.change (a := a) (q := some { found with xpRef := none }) (h.lt_next hp) (by rw [hmemory])
    (by rw [hmemory]) (by rw [hmemory]) (by rw [hmemory]; exact h.nodup) ?_ (fun _ _ => Iff.rfl) ?_
    h.once ?_
  · intro b
    rw [hmemory]
    exact h.listed_update hp _ b
  · intro handler hmem ha
    exact absurd ha (h.not_handled hp hstate handler hmem)
  · rintro _ ⟨⟩
    have howned := h.fits a found hp
    rw [Fits, hstate] at howned
    simp only [Fits, hstate]
    exact howned.congr fun c => by rw [hmemory]

theorem registerXpcommand_ordered (h : Sound live s) (findCommand createCommand proxy : Option ℕ) :
    Ordered live s ((registerXpcommand findCommand createCommand proxy).run s).state := by
  cases proxy with
  | none => exact ⟨h, rfl⟩
  | some a =>
    simp only [registerXpcommand, Logged.run_bind, run_readXpcommand, Outcome.after_nil]
    cases s.world.memory.xpcommands a with
    | none => exact ⟨h, rfl⟩
    | some found =>
      simp only [Logged.run_ite]
      split_ifs
      · exact ⟨h, rfl⟩
      rcases lockedRegistry_cases (fun err => err) _ s with ⟨err, -, -,
        hsame⟩ | ⟨s₁, hsame, -, hend⟩
      · exact h.ordered hsame.same
      refine .between hsame.same ?_ hend.same
      have h₁ := h.same hsame.same
      simp only [Logged.run_bind, run_readXpcommand, Outcome.after_nil]
      cases hp : s₁.world.memory.xpcommands a with
      | none => exact ⟨h₁, rfl⟩
      | some found =>
        simp only [Logged.run_ite]
        split_ifs with hstate
        · exact ⟨h₁, rfl⟩
        rw [Classical.not_not] at hstate
        -- `XPLMFindCommand` or `XPLMCreateCommand` has a command, or neither has
        cases findCommand with
        | some xpRef => exact ⟨registerHandler_sound h₁ hp hstate, rfl⟩
        | none =>
          cases createCommand with
          | some xpRef => exact ⟨registerHandler_sound h₁ hp hstate, rfl⟩
          | none => exact ⟨unfound_sound h₁ hp hstate, rfl⟩

theorem freeXpcommand_sound {handlers : List CommandHandler} (h : Sound live s)
    (hp : s.world.memory.xpcommands a = some found) (honce : handlers.Nodup)
    (hothers : ∀ handler : CommandHandler, handler.proxy ≠ a →
      (handler ∈ handlers ↔ handler ∈ s.handlers))
    (hgone : ∀ handler ∈ handlers, handler.proxy ≠ a) :
    Sound live ((freeXpcommand a).run { s with handlers := handlers }).state := by
  refine h.change (a := a) (q := none) (h.lt_next hp) rfl rfl rfl
    (h.nodup.erase a) ?_ hothers ?_ honce
    nofun
  · intro b
    change b ∈ s.world.memory.commands.erase a ↔
      (Function.update s.world.memory.xpcommands a none b).isSome
    by_cases hb : b = a
    · subst hb
      simp [h.nodup.not_mem_erase]
    · rw [List.mem_erase_of_ne hb, Function.update_of_ne hb]
      exact h.listed b
  · intro handler hmem ha
    exact absurd ha (hgone handler hmem)

/-- What became of the registry when the proxy `a` was to be freed. -/
structure Freed (live : List ℕ) (a : ℕ) (s s' : XpWorld) : Prop where
  sound : Sound live s'
  gone : s'.world.memory.xpcommands a = none
  others : ∀ b, b ≠ a → s'.world.memory.xpcommands b = s.world.memory.xpcommands b
  cmrg : s'.world.memory.cmrg = s.world.memory.cmrg

/-- A proxy that exists can always be deregistered and freed. -/
theorem unregisterDestroyItem_freed (h : Sound live s)
    (hp : s.world.memory.xpcommands a = some found) :
    ((unregisterDestroyItem a).run s).val = .none ∧
      Freed live a s ((unregisterDestroyItem a).run s).state := by
  have hothers : ∀ b, b ≠ a → Function.update s.world.memory.xpcommands a none b =
      s.world.memory.xpcommands b := fun b hb => Function.update_of_ne hb _ _
  have hgone := Function.update_self a (none : Option Xpcommand) s.world.memory.xpcommands
  have hfits := h.fits a found hp
  by_cases hstate : found.state = .registered ∨ found.state = .dropped
  · obtain ⟨xpRef, hxp, -⟩ : Handled s.handlers a found := by
      rcases hstate with hstate | hstate
      · rw [Fits, hstate] at hfits; exact hfits.2
      · rw [Fits, hstate] at hfits; exact hfits
    have hrun : (unregisterDestroyItem a).run s =
        ⟨.none, ((freeXpcommand a).run { s with
          handlers := s.handlers.erase ⟨xpRef, found.phase, a⟩ }).state, []⟩ := by
      simp only [unregisterDestroyItem, Logged.run_bind, run_readXpcommand, Outcome.after_nil, hp,
        hstate, ↓reduceIte, hxp]
      rfl
    rw [hrun]
    refine ⟨rfl, freeXpcommand_sound h hp (h.once.erase _) ?_ ?_, hgone, hothers, rfl⟩
    · intro handler hne
      refine List.mem_erase_of_ne ?_
      rintro rfl
      exact hne rfl
    · intro handler hmem ha
      have heq := h.handler_eq hp hxp (List.mem_of_mem_erase hmem) ha
      rw [heq] at hmem
      exact h.once.not_mem_erase hmem
  · have hrun : (unregisterDestroyItem a).run s =
        ⟨.none, ((freeXpcommand a).run { s with handlers := s.handlers }).state, []⟩ := by
      simp only [unregisterDestroyItem, Logged.run_bind, run_readXpcommand, Outcome.after_nil, hp,
        hstate, ↓reduceIte]
      rfl
    have hcreated : found.state = .created := by
      unfold Fits at hfits
      cases hf : found.state with
      | created => rfl
      | registered => exact absurd (.inl hf) hstate
      | dropped => exact absurd (.inr hf) hstate
      | destroyed => rw [hf] at hfits; exact hfits.elim
    rw [hrun]
    exact ⟨rfl, freeXpcommand_sound h hp h.once (fun _ _ => Iff.rfl) (h.not_handled hp hcreated),
      hgone, hothers, rfl⟩

/-- `unregister_destroy_xpcommand` frees the proxy unless it reports an error. -/
theorem unregisterDestroyXpcommand_ordered (h : Sound live s) (proxy : Option ℕ) :
    let r := (unregisterDestroyXpcommand proxy).run s
    Ordered live s r.state ∧
      (r.val = .none → ∀ a, proxy = some a → r.state.world.memory.xpcommands a = none) := by
  intro r
  cases proxy with
  | none => exact ⟨⟨h, rfl⟩, fun _ _ ha => nomatch ha⟩
  | some a =>
    rcases lockedRegistry_cases (fun err => err) (do
        let found ← lift (readMemory fun m => decide (a ∈ m.commands))
        if found then unregisterDestroyItem a else pure .unspecific) s with
      ⟨err, herr, hval, hsame⟩ | ⟨s₁, hsame, hval, hend⟩
    · exact ⟨h.ordered hsame.same, fun hnone => absurd (hval.symm.trans hnone) herr⟩
    have h₁ := h.same hsame.same
    simp only [Logged.run_bind, run_lift_readMemory, Outcome.after_nil] at hval hend
    by_cases hmem : a ∈ s₁.world.memory.commands
    · simp only [hmem, decide_true, ↓reduceIte] at hval hend
      obtain ⟨found, hp⟩ := Option.isSome_iff_exists.1 ((h₁.listed a).1 hmem)
      obtain ⟨-, hfreed⟩ := unregisterDestroyItem_freed h₁ hp
      refine ⟨.between hsame.same ⟨hfreed.sound, hfreed.cmrg⟩ hend.same, fun _ b hb => ?_⟩
      cases hb
      exact (congrFun (congrArg CmrgMemory.xpcommands hend.same.1) a).trans hfreed.gone
    · simp only [hmem, decide_false, Bool.false_eq_true, ↓reduceIte] at hval hend
      refine ⟨.between hsame.same ⟨h₁, rfl⟩ hend.same, fun hnone => ?_⟩
      exact absurd (hval.symm.trans hnone) (by simp)

/-- The maintenance loop deregisters every dropped proxy of its list and leaves the others alone. -/
theorem unregisterDroppedLoop_spec (list : List ℕ) (outErr : ErrorCode) (h : Sound live s) :
    let r := (unregisterDroppedLoop list outErr).run s
    r.val = outErr ∧ Sound live r.state ∧ ∀ a found, r.state.world.memory.xpcommands a =
      some found →
      s.world.memory.xpcommands a = some found ∧ (a ∈ list → found.state ≠ .dropped) := by
  intro r
  induction list generalizing s with
  | nil => exact ⟨rfl, h, fun a found hp => ⟨hp, fun ha => nomatch ha⟩⟩
  | cons a list ih =>
    simp only [r, unregisterDroppedLoop, Logged.run_bind, run_readXpcommand, Outcome.after_nil]
    cases hp : s.world.memory.xpcommands a with
    | none =>
      obtain ⟨hval, hsound, hkept⟩ := ih h
      refine ⟨hval, hsound, fun b found hb => ⟨(hkept b found hb).1, fun hmem => ?_⟩⟩
      rcases List.mem_cons.1 hmem with rfl | hmem
      · rw [(hkept b found hb).1] at hp
        cases hp
      · exact (hkept b found hb).2 hmem
    | some p =>
      simp only [Logged.run_ite]
      split_ifs with hdropped
      · obtain ⟨hnone, hfreed⟩ := unregisterDestroyItem_freed h hp
        simp only [Logged.run_bind, Outcome.after_val, Outcome.after_state, hnone, ne_eq,
          not_true_eq_false, ↓reduceIte]
        obtain ⟨hval, hsound, hkept⟩ := ih hfreed.sound
        refine ⟨hval, hsound, fun b found hb => ?_⟩
        obtain ⟨hb', hlist⟩ := hkept b found hb
        have hne : b ≠ a := by
          rintro rfl
          rw [hfreed.gone] at hb'
          cases hb'
        rw [hfreed.others b hne] at hb'
        exact ⟨hb', fun hmem => hlist ((List.mem_cons.1 hmem).resolve_left hne)⟩
      · obtain ⟨hval, hsound, hkept⟩ := ih h
        refine ⟨hval, hsound, fun b found hb => ⟨(hkept b found hb).1, fun hmem => ?_⟩⟩
        rcases List.mem_cons.1 hmem with rfl | hmem
        · obtain rfl : p = found := Option.some.inj (hp.symm.trans (hkept b found hb).1)
          exact hdropped
        · exact (hkept b found hb).2 hmem

end

/-! ### The commands -/

section

variable {live : List ℕ} {s s' : XpWorld} {ref : ℕ}

theorem tame_of_steady {w w' : World CmrgMemory} (h : w.Steady w') : Tame w w' :=
  tame_of_memory h.memory

theorem tame_modifyCommand {f : CommandCmrg → CommandCmrg} (hf : ∀ c, (f c).xpcmd = c.xpcmd) :
    Leads Tame (modifyCommand ref f) := by
  refine fun w => ⟨rfl, rfl, Nat.le_refl _, fun c => ?_⟩
  change (Function.update w.memory.cmrg ref ((w.memory.cmrg ref).map f) c).map _ = _
  by_cases hc : c = ref
  · subst hc
    rw [Function.update_self, Option.map_map]
    exact congrArg (fun g => (w.memory.cmrg c).map g) (funext hf)
  · rw [Function.update_of_ne hc]

theorem tame_unscheduleTask (task : Option ℕ) : Leads Tame (unscheduleTask task) := by
  cases task with
  | none => exact .pure _
  | some task =>
    refine .bind (.read _) fun queue => .ite (.bind (.update fun w => ?_) fun _ => .pure _)
      (.pure _)
    exact ⟨rfl, rfl, Nat.le_refl _, fun _ => rfl⟩

theorem tame_unschedule (command : CommandCmrg) : Leads Tame (unschedule ref command) := by
  refine .bind (locked_leads (fun _ _ h => tame_of_steady h.settles.steady) ?_) fun err =>
    .ite ?_ (.pure _)
  · refine .bind (tame_unscheduleTask _) fun err => .ite ?_ (.pure _)
    exact .bind (tame_modifyCommand fun _ => rfl) fun _ => .pure _
  · refine .bind (tame_modifyCommand fun _ => rfl) fun _ => .bind (.update fun w => ?_) fun _ =>
      .pure _
    exact tame_of_memory rfl

/-- An event sends messages at most, and may mark its command as failed. -/
theorem handleEvent_leads {R : World CmrgMemory → World CmrgMemory → Prop} [Std.Refl R]
    [IsTrans (World CmrgMemory) R] (hR : ∀ w w' : World CmrgMemory, w.Speaks w' → R w w')
    (hfailed : Leads R (markFailed ref)) (xpPhase : XplmCommandPhase) :
    Leads R (handleEvent ref xpPhase) := by
  have hmessage : ∀ (call : ChannelCall) id text, Leads R
      (call.exec id currentTimeReference text : M CmrgMemory ErrorCode) := fun call id text =>
    (call.exec_speaks id _ text).mono hR
  refine .bind (.read _) fun command => ?_
  cases command with
  | none => exact .pure _
  | some command =>
    refine .ite (.pure _) ?_
    cases eventMessage command.monitor xpPhase with
    | none => exact .ite hfailed (.pure _)
    | some text =>
      refine .bind (hmessage .continues _ _) fun err => .ite (.pure _) ?_
      exact .bind (hmessage .error _ _) fun _ => hfailed

theorem xpCommandHandler_leads {R : World CmrgMemory → World CmrgMemory → Prop} [Std.Refl R]
    [IsTrans (World CmrgMemory) R] (hR : ∀ w w' : World CmrgMemory, w.Speaks w' → R w w')
    (hfailed : ∀ ref, Leads R (markFailed ref)) (inCommand : ℕ) (inPhase : XplmCommandPhase)
    (inRefcon : Option ℕ) : Leads R (xpCommandHandler handleEvent inCommand inPhase inRefcon) := by
  cases inRefcon with
  | none => exact .pure _
  | some proxy =>
    refine .bind (.read _) fun found => ?_
    cases found with
    | none => exact .pure _
    | some found =>
      refine .ite (.pure _) (locked_leads hR ?_)
      refine .bind (.read _) fun found => ?_
      cases found with
      | none => exact .pure _
      | some found =>
        refine .ite (.pure _) (.ite (.pure _) ?_)
        cases found.callback with
        | none => exact .pure _
        | some ref => exact .bind (handleEvent_leads hR (hfailed ref) inPhase) fun _ => .pure _

theorem tame_xpCommandHandler (inCommand : ℕ) (inPhase : XplmCommandPhase) (inRefcon : Option ℕ) :
    Leads Tame (xpCommandHandler handleEvent inCommand inPhase inRefcon) :=
  xpCommandHandler_leads (fun _ _ h => tame_of_steady h.settles.steady)
    (fun _ => tame_modifyCommand fun _ => rfl) inCommand inPhase inRefcon

theorem Sound.lift_tame {α : Type} {p : M CmrgMemory α} (h : Sound live s) (hp : Leads Tame p) :
    Sound live ((lift p).run s).state :=
  h.tame (hp s.world) rfl

theorem sendMessage_same (call : ChannelCall) (command : CommandCmrg) (text : Option String) :
    Same s ((sendMessage call command text).run s).state :=
  ⟨(call.exec_steady _ _ _ s.world).memory, rfl⟩

theorem Sound.forget (h : Sound live s)
    (hgone : ∀ a, (s.world.memory.cmrg ref).bind CommandCmrg.xpcmd = some a →
      s.world.memory.xpcommands a = none) :
    Sound live ((lift (modifyCommand ref fun command =>
      { command with xpcmd := none })).run s).state := by
  refine ⟨h.nodup, h.listed, fun a found hp => ?_, h.handled, h.once, fun a ha => ?_⟩
  · refine Fits.congr (s := s) ?_ (fun hhandled => hhandled) (h.fits a found hp)
    rintro ⟨r, hr, hown⟩
    have hne : r ≠ ref := by
      rintro rfl
      change s.world.memory.xpcommands a = some found at hp
      rw [hgone a hown] at hp
      cases hp
    refine ⟨r, hr, ?_⟩
    change (Function.update s.world.memory.cmrg ref _ r).bind _ = _
    rw [Function.update_of_ne hne]
    exact hown
  · refine ⟨(h.fresh a ha).1, ?_⟩
    change Function.update s.world.memory.cmrg ref _ a = none
    have hnone := (h.fresh a ha).2
    by_cases hne : a = ref
    · subst hne
      rw [Function.update_self, hnone]
      rfl
    · rw [Function.update_of_ne hne]
      exact hnone

theorem abandon_sound {command : CommandCmrg} (h : Sound live s)
    (hcommand : s.world.memory.cmrg ref = some command) :
    Sound live ((abandon ref command).run s).state := by
  obtain ⟨hordered, hfreed⟩ := unregisterDestroyXpcommand_ordered h command.xpcmd
  have hfailed : Leads Tame (markFailed ref) := tame_modifyCommand fun _ => rfl
  have hend : ∀ s₁, Sound live s₁ → Sound live ((do
      let _ ← sendMessage .error command (some "channel confirmation failed")
      lift (markFailed ref) : X Unit).run s₁).state := by
    intro s₁ hs₁
    exact (hs₁.same (sendMessage_same _ _ _)).lift_tame hfailed
  unfold abandon
  rw [Logged.run_bind, Outcome.after_state]
  set r := (unregisterDestroyXpcommand command.xpcmd).run s
  by_cases hnone : r.val = .none
  · simp only [hnone, ↓reduceIte]
    rw [Logged.run_bind, Outcome.after_state]
    refine hend _ (hordered.sound.forget fun a ha => ?_)
    rw [hordered.cmrg, hcommand, Option.bind_some] at ha
    exact hfreed hnone a ha
  · simp only [hnone, ↓reduceIte]
    rw [Logged.run_bind, Outcome.after_state]
    exact hend _ (hordered.sound.same (sendMessage_same _ _ _))

theorem processFlightloop_sound (h : Sound live s) (findCommand createCommand : Option ℕ) :
    Sound live ((processFlightloop ref findCommand createCommand).run s).state := by
  have hfailed : Leads Tame (markFailed ref) := tame_modifyCommand fun _ => rfl
  simp only [processFlightloop, Logged.run_bind, run_lift_readMemory, Outcome.after_nil]
  cases hcommand : s.world.memory.cmrg ref with
  | none => exact h
  | some command =>
    simp only [Logged.run_ite]
    split_ifs
    swap
    · exact h
    have hordered := registerXpcommand_ordered h findCommand createCommand command.xpcmd
    unfold initializeCommand
    rw [Logged.run_bind, Outcome.after_state]
    set r := (registerXpcommand findCommand createCommand command.xpcmd).run s
    rw [Logged.run_ite]
    split_ifs
    · exact (hordered.sound.same (sendMessage_same _ _ _)).lift_tame hfailed
    · have hsame := sendMessage_same (s := r.state) .confirm command none
      rw [Logged.run_bind, Outcome.after_state, Logged.run_ite]
      split_ifs
      · refine abandon_sound (hordered.sound.same hsame) ?_
        rw [hsame.1, hordered.cmrg, hcommand]
      · exact (hordered.sound.same hsame).lift_tame (tame_modifyCommand fun _ => rfl)

/-! ### Termination -/

/-- Code under a lock works on the same memory, or does not run. -/
theorem locked_cases {α : Type} {l : Lock} (refused : ErrorCode → α) (body : M CmrgMemory α)
    (w : World CmrgMemory) :
    (∃ err, err ≠ .none ∧ ((locked l refused body).run w).val = refused err ∧
      ((locked l refused body).run w).state.memory = w.memory) ∨
    ∃ w₁ : World CmrgMemory, w₁.memory = w.memory ∧
      ((locked l refused body).run w).val = (body.run w₁).val ∧
      ((locked l refused body).run w).state.memory = (body.run w₁).state.memory := by
  by_cases h : w.refuses l
  · left
    obtain ⟨n, -, hval, hstate, -⟩ := lockFlagged_refused h
    refine ⟨_, hval, ?_, ?_⟩
    · simp [locked, hval]
    · simp [locked, hval, hstate, World.atTick]
  · right
    refine ⟨w.holding l, rfl, ?_, ?_⟩
    · rw [locked_granted h]
    · rw [locked_granted h]
      rfl

theorem lockedXpcommand_cases {α : Type} (a : ℕ) (refused : ErrorCode → α)
    (body : Xpcommand → M CmrgMemory α) (w : World CmrgMemory) :
    (∃ err, err ≠ .none ∧ ((lockedXpcommand a refused body).run w).val = refused err ∧
      ((lockedXpcommand a refused body).run w).state.memory = w.memory) ∨
    ∃ (w₁ : World CmrgMemory) (found : Xpcommand), w₁.memory = w.memory ∧
      w.memory.xpcommands a = some found ∧
      ((lockedXpcommand a refused body).run w).val = ((body found).run w₁).val ∧
      ((lockedXpcommand a refused body).run w).state.memory =
        ((body found).run w₁).state.memory := by
  have hrefused : ErrorCode.unspecific ≠ .none := by decide
  cases hp : w.memory.xpcommands a with
  | none =>
    refine .inl ⟨.unspecific, hrefused, ?_, ?_⟩
    · simp [lockedXpcommand, readMemory, hp]
    · simp [lockedXpcommand, readMemory, hp]
  | some found =>
    by_cases hstate : found.state = .destroyed
    · refine .inl ⟨.unspecific, hrefused, ?_, ?_⟩
      · simp [lockedXpcommand, readMemory, hp, hstate]
      · simp [lockedXpcommand, readMemory, hp, hstate]
    · -- what runs under the lock looks the proxy up once more
      obtain ⟨inner, hrun, hinner⟩ : ∃ inner : M CmrgMemory α,
          (lockedXpcommand a refused body).run w = (locked .registry refused inner).run w ∧
          ∀ w₁ : World CmrgMemory, w₁.memory = w.memory → inner.run w₁ = (body found).run w₁ := by
        apply Exists.intro
        apply And.intro
        · simp only [lockedXpcommand, readMemory, Logged.run_bind, Logged.run_read, hp, hstate,
            ↓reduceIte, Outcome.after_nil]
          rfl
        · intro w₁ hw₁
          simp [hw₁, hp]
      rw [hrun]
      rcases locked_cases refused inner w with ⟨err, herr, hval, hmemory⟩ | ⟨w₁, hw₁, hval, hmemory⟩
      · exact .inl ⟨err, herr, hval, hmemory⟩
      · rw [hinner w₁ hw₁] at hval hmemory
        exact .inr ⟨w₁, found, hw₁, rfl, hval, hmemory⟩

theorem Sound.drop {a : ℕ} {found : Xpcommand} (h : Sound live s)
    (hp : s.world.memory.xpcommands a = some found) (hstate : found.state = .registered) :
    Sound live
      ((lift (modifyXpcommand a fun found => { found with state := .dropped })).run s).state := by
  set r := ((lift (modifyXpcommand a fun found => { found with state := .dropped })).run s).state
  have hmemory : r.world.memory = { s.world.memory with
      xpcommands := Function.update s.world.memory.xpcommands a
        (some { found with state := .dropped }) } := modifyXpcommand_memory hp
  have hfits := h.fits a found hp
  rw [Fits, hstate] at hfits
  obtain ⟨-, xpRef, hxp, hmem⟩ := hfits
  refine h.change (a := a) (q := some { found with state := .dropped }) (h.lt_next hp)
    (by rw [hmemory])
    (by rw [hmemory]) (by rw [hmemory]) (by rw [hmemory]; exact h.nodup) ?_ (fun _ _ => Iff.rfl) ?_
    h.once ?_
  · intro b
    rw [hmemory]
    exact h.listed_update hp _ b
  · intro handler hhandler ha
    have heq := h.handler_eq hp hxp hhandler ha
    exact ⟨_, rfl, .inr rfl, by rw [heq]; exact hxp, by rw [heq]⟩
  · rintro _ ⟨⟩
    exact ⟨xpRef, hxp, hmem⟩

/-- `drop_xpcommand`, unless it reports an error, leaves the proxy dropped. -/
theorem dropXpcommand_ordered (h : Sound live s) (proxy : Option ℕ)
    (hregistered : ∀ a found, proxy = some a → s.world.memory.xpcommands a = some found →
      found.state ≠ .created) :
    let r := (lift (dropXpcommand proxy)).run s
    Ordered live s r.state ∧ (r.val = .none → ∀ a found, proxy = some a →
      r.state.world.memory.xpcommands a = some found → found.state = .dropped) := by
  intro r
  cases proxy with
  | none => exact ⟨⟨h, rfl⟩, fun _ _ _ ha => absurd ha (by simp)⟩
  | some a =>
    rcases lockedXpcommand_cases a (fun err => err) (fun found =>
        if found.state = .registered ∨ found.state = .created then do
          modifyXpcommand a fun found => { found with state := .dropped }
          pure .none
        else pure .unspecific) s.world with
      ⟨err, herr, hval, hmemory⟩ | ⟨w₁, found, hw₁, hp, hval, hmemory⟩
    · exact ⟨h.ordered ⟨hmemory, rfl⟩, fun hnone => absurd (hval.symm.trans hnone) herr⟩
    have hcreated : found.state ≠ .created := hregistered a found rfl hp
    by_cases hstate : found.state = .registered
    · have hfinal : r.state.world.memory = ((modifyXpcommand a fun found =>
          { found with state := .dropped }).run s.world).state.memory := by
        refine hmemory.trans ?_
        simp [modifyXpcommand, updateMemory, hstate, hw₁]
      refine ⟨⟨(h.drop hp hstate).same ⟨hfinal, rfl⟩, ?_⟩, fun _ b found' hb hb' => ?_⟩
      · rw [hfinal]
        rfl
      · cases hb
        simp only [hfinal, modifyXpcommand_memory hp, Function.update_self,
          Option.some.injEq] at hb'
        rw [← hb']
    · have hneither : ¬ (found.state = .registered ∨ found.state = .created) := by
        simp [hstate, hcreated]
      simp only [hneither, ↓reduceIte, Logged.run_pure] at hval hmemory
      refine ⟨h.ordered ⟨hmemory.trans hw₁, rfl⟩, fun hnone => ?_⟩
      exact absurd (hval.symm.trans hnone) (by simp)

theorem Sound.retire (h : Sound live s)
    (hdropped : ∀ a found, (s.world.memory.cmrg ref).bind CommandCmrg.xpcmd = some a →
      s.world.memory.xpcommands a = some found → found.state = .dropped) :
    Sound (live.filter (· ≠ ref)) s := by
  refine ⟨h.nodup, h.listed, fun a found hp => ?_, h.handled, h.once, h.fresh⟩
  have hown : found.state ≠ .dropped → Owned live s.world.memory a →
      Owned (live.filter (· ≠ ref)) s.world.memory a := by
    rintro hstate ⟨r, hr, hown⟩
    have hne : r ≠ ref := by
      rintro rfl
      exact hstate (hdropped a found hown hp)
    exact ⟨r, List.mem_filter.2 ⟨hr, by simpa using hne⟩, hown⟩
  have hfits := h.fits a found hp
  unfold Fits at hfits ⊢
  cases hstate : found.state with
  | created =>
    rw [hstate] at hfits
    exact hown (by rw [hstate]; decide) hfits
  | registered =>
    rw [hstate] at hfits
    exact ⟨hown (by rw [hstate]; decide) hfits.1, hfits.2⟩
  | dropped => rw [hstate] at hfits; exact hfits
  | destroyed => rw [hstate] at hfits; exact hfits

/-- The command has no proxy that was created and never registered. -/
def Registered (m : CmrgMemory) (ref : ℕ) : Prop :=
  ∀ a found, (m.cmrg ref).bind CommandCmrg.xpcmd = some a → m.xpcommands a = some found →
    found.state ≠ .created

/-- `cmrg_terminate` keeps the registry in order, and if it succeeds the command is not needed for
that any more. -/
theorem terminate_sound (h : Sound live s) (hregistered : Registered s.world.memory ref) :
    let r := (lift (terminate (some ref))).run s
    Sound live r.state ∧ (r.val = .none → Sound (live.filter (· ≠ ref)) r.state) := by
  intro r
  cases hcommand : s.world.memory.cmrg ref with
  | none =>
    have hrun : r = ⟨.unspecific, s, []⟩ := by simp [r, terminate, readMemory, hcommand]
    rw [hrun]
    exact ⟨h, fun hnone => absurd hnone (by simp)⟩
  | some command =>
    have hrun : r = (lift (terminateCommand ref command)).run s := by
      simp [r, terminate, readMemory, hcommand]
    rw [hrun]
    -- the message changes nothing, then the proxy is dropped
    set w₁ := ((finishChannel command.channelId currentTimeReference none :
      M CmrgMemory ErrorCode).run s.world).state
    have hsame : Same s { s with world := w₁ } :=
      ⟨(ChannelCall.exec_steady .finish _ _ _ s.world).memory, rfl⟩
    have h₁ := h.same hsame
    obtain ⟨hordered, hdropped⟩ := dropXpcommand_ordered h₁ command.xpcmd (by
      intro a found ha hp
      rw [hsame.1] at hp
      exact hregistered a found (by rw [hcommand, Option.bind_some]; exact ha) hp)
    set d := (lift (dropXpcommand command.xpcmd)).run { s with world := w₁ } with hd
    have hsplit : ((lift (terminateCommand ref command)).run s).state =
        (if d.val = .none then ((lift (unschedule ref command)).run d.state).state else d.state) ∧
        (((lift (terminateCommand ref command)).run s).val = .none → d.val = .none) := by
      have hvaleq : d.val = ((dropXpcommand command.xpcmd).run w₁).val := rfl
      by_cases hnone : d.val = .none
      · refine ⟨?_, fun _ => hnone⟩
        rw [if_pos hnone]
        rw [hvaleq] at hnone
        simp [terminateCommand, hnone, hd, w₁]
      · refine ⟨?_, fun hend => ?_⟩
        · rw [if_neg hnone]
          rw [hvaleq] at hnone
          simp [terminateCommand, hnone, hd, w₁]
        · rw [hvaleq] at hnone
          simp [terminateCommand, hnone, w₁] at hend
    rw [hsplit.1]
    have htame : Tame d.state.world ((lift (unschedule ref command)).run d.state).state.world :=
      tame_unschedule command d.state.world
    refine ⟨?_, fun hend => ?_⟩
    · split_ifs
      · exact hordered.sound.tame htame rfl
      · exact hordered.sound
    · rw [if_pos (hsplit.2 hend)]
      refine Sound.tame (hordered.sound.retire fun a found ha hp => ?_) htame rfl
      rw [hordered.cmrg, hsame.1, hcommand, Option.bind_some] at ha
      exact hdropped (hsplit.2 hend) a found ha hp

/-! ### Creation -/

/-- `cmrg_create` from the allocation of the command to that of the task; the result says whether
the proxy was listed. -/
def prepareProxy (ref : ℕ) (request : Request) : M CmrgMemory Bool :=
  let fails (text : String) : M CmrgMemory Bool := do
    let _ ← fail ref request.channelId text
    pure false
  match parseMonitor (request.getOption "monitor" "all") with
  | none => fails "unsupported monitor option"
  | some monitor => do
    modifyCommand ref fun command => { command with monitor := monitor }
    match parsePhase (request.getOption "phase" "before") with
    | none => fails "unsupported phase"
    | some phase =>
      match parsePropagation (request.getOption "propagate" "false") with
      | none => fails "unsupported propagate option"
      | some propagate => do
        match ← copyUnescapedString request.parameters[0]? with
        | none => fails "command name is required"
        | some name => do
          match ← copyUnescapedString (some (request.parameters[1]?.getD name)) with
          | none => fails "failed to copy command description"
          | some description =>
            if 2 < request.parameters.length then fails "too many parameters"
            else do
              match ← createXpcommand name description phase propagate ref with
              | none => fails "failed to prepare XP command"
              | some proxy => do
                modifyCommand ref fun command => { command with xpcmd := some proxy }
                pure true

/-- The program `p` does what `q` does, and then schedules the task of the command unless `q` says
that the creation has failed. -/
def Splits (ref : ℕ) (id : ChannelId) (p : M CmrgMemory (ErrorCode × Option ℕ))
    (q : M CmrgMemory Bool) : Prop :=
  ∀ w, ((q.run w).val = false ∧ (p.run w).val = (.unspecific, none) ∧
      (p.run w).state = (q.run w).state) ∨
    ((q.run w).val = true ∧ (p.run w).val = ((createTask ref id).run (q.run w).state).val ∧
      (p.run w).state = ((createTask ref id).run (q.run w).state).state)

theorem Splits.bind {α : Type} {id : ChannelId} {r : M CmrgMemory α}
    {f : α → M CmrgMemory (ErrorCode × Option ℕ)} {g : α → M CmrgMemory Bool}
    (h : ∀ a, Splits ref id (f a) (g a)) : Splits ref id (r >>= f) (r >>= g) :=
  fun w => h (r.run w).val (r.run w).state

theorem Splits.ite {c : Prop} [Decidable c] {id : ChannelId}
    {p p' : M CmrgMemory (ErrorCode × Option ℕ)} {q q' : M CmrgMemory Bool}
    (h : Splits ref id p q) (h' : Splits ref id p' q') :
    Splits ref id (if c then p else p') (if c then q else q') := by
  split_ifs
  · exact h
  · exact h'

theorem Splits.fail (id : ChannelId) (text : String) :
    Splits ref id (fail ref id text) (do let _ ← Cmrg.fail ref id text; pure false) :=
  fun _ => .inl ⟨rfl, rfl, rfl⟩

theorem configure_splits (request : Request) :
    Splits ref request.channelId (configure ref request) (prepareProxy ref request) := by
  unfold configure prepareProxy
  cases parseMonitor (request.getOption "monitor" "all") with
  | none => exact .fail _ _
  | some monitor =>
    refine .bind fun _ => ?_
    cases parsePhase (request.getOption "phase" "before") with
    | none => exact .fail _ _
    | some phase =>
      cases parsePropagation (request.getOption "propagate" "false") with
      | none => exact .fail _ _
      | some propagate =>
        refine .bind fun name => ?_
        cases name with
        | none => exact .fail _ _
        | some name =>
          refine .bind fun description => ?_
          cases description with
          | none => exact .fail _ _
          | some description =>
            refine .ite (.fail _ _) (.bind fun proxy => ?_)
            cases proxy with
            | none => exact .fail _ _
            | some proxy => exact .bind fun _ w => .inr ⟨rfl, rfl, rfl⟩

/-- The memory is that of `w` but for the command `ref`; no proxy was listed. -/
structure Unlisted (ref : ℕ) (w w' : World CmrgMemory) : Prop where
  xpcommands : w'.memory.xpcommands = w.memory.xpcommands
  commands : w'.memory.commands = w.memory.commands
  next : w.memory.next ≤ w'.memory.next
  others : ∀ c, c ≠ ref → w'.memory.cmrg c = w.memory.cmrg c
  alive : (w.memory.cmrg ref).isSome → (w'.memory.cmrg ref).isSome

instance : Std.Refl (Unlisted ref) :=
  ⟨fun _ => ⟨rfl, rfl, Nat.le_refl _, fun _ _ => rfl, fun h => h⟩⟩

instance : IsTrans (World CmrgMemory) (Unlisted ref) :=
  ⟨fun _ _ _ h h' => ⟨h'.xpcommands.trans h.xpcommands, h'.commands.trans h.commands,
    Nat.le_trans h.next h'.next, fun c hc => (h'.others c hc).trans (h.others c hc),
    fun ha => h'.alive (h.alive ha)⟩⟩

theorem unlisted_of_memory {w w' : World CmrgMemory} (h : w'.memory = w.memory) :
    Unlisted ref w w' :=
  ⟨by rw [h], by rw [h], Nat.le_of_eq (by rw [h]), fun _ _ => by rw [h],
    fun ha => by rw [h]; exact ha⟩

theorem unlisted_modifyCommand (f : CommandCmrg → CommandCmrg) :
    Leads (Unlisted ref) (modifyCommand ref f) := by
  refine fun w => ⟨rfl, rfl, Nat.le_refl _, fun c hc => Function.update_of_ne hc _ _, fun ha => ?_⟩
  change (Function.update w.memory.cmrg ref ((w.memory.cmrg ref).map f) ref).isSome
  rw [Function.update_self, Option.isSome_map]
  exact ha

theorem unlisted_copyUnescapedString (text : Option (List UInt8)) :
    Leads (Unlisted ref) (copyUnescapedString text : M CmrgMemory (Option (List UInt8))) := by
  cases text with
  | none => exact .pure _
  | some text =>
    exact .bind (fun w => unlisted_of_memory rfl) fun _ => .ite (.pure _) (.pure _)

/-- A creation that failed: the command is freed. -/
structure Discarded (ref : ℕ) (w w' : World CmrgMemory) : Prop where
  xpcommands : w'.memory.xpcommands = w.memory.xpcommands
  commands : w'.memory.commands = w.memory.commands
  next : w.memory.next ≤ w'.memory.next
  others : ∀ c, c ≠ ref → w'.memory.cmrg c = w.memory.cmrg c
  gone : w'.memory.cmrg ref = none

/-- A new proxy is listed, and the command has it. -/
structure Listed (ref : ℕ) (w w' : World CmrgMemory) : Prop where
  proxy : ∃ a found, w.memory.next ≤ a ∧ a < w'.memory.next ∧ found.state = .created ∧
    found.callback = some ref ∧
    w'.memory.xpcommands = Function.update w.memory.xpcommands a (some found) ∧
    w'.memory.commands = w.memory.commands ++ [a] ∧
    (w'.memory.cmrg ref).bind CommandCmrg.xpcmd = some a
  others : ∀ c, c ≠ ref → w'.memory.cmrg c = w.memory.cmrg c

/-- A creation that lists a proxy for the command or frees it. -/
def Prepares (ref : ℕ) (p : M CmrgMemory Bool) : Prop :=
  ∀ w, (w.memory.cmrg ref).isSome →
    ((p.run w).val = false ∧ Discarded ref w (p.run w).state) ∨
    ((p.run w).val = true ∧ Listed ref w (p.run w).state)

theorem Prepares.bind {α : Type} {p : M CmrgMemory α} {f : α → M CmrgMemory Bool}
    (hp : Leads (Unlisted ref) p) (hf : ∀ a, Prepares ref (f a)) : Prepares ref (p >>= f) := by
  intro w halive
  have h := hp w
  rcases hf (p.run w).val (p.run w).state (h.alive halive) with ⟨hval, hd⟩ | ⟨hval, hl⟩
  · exact .inl ⟨hval, hd.xpcommands.trans h.xpcommands, hd.commands.trans h.commands,
      Nat.le_trans h.next hd.next, fun c hc => (hd.others c hc).trans (h.others c hc), hd.gone⟩
  · obtain ⟨⟨a, found, hle, hlt, hstate, hcallback, hx, hcommands, hown⟩, hothers⟩ := hl
    refine .inr ⟨hval, ⟨a, found, Nat.le_trans h.next hle, hlt, hstate, hcallback, ?_, ?_, hown⟩,
      ?_⟩
    · rw [← h.xpcommands]; exact hx
    · rw [← h.commands]; exact hcommands
    · exact fun c hc => (hothers c hc).trans (h.others c hc)

theorem Prepares.ite {c : Prop} [Decidable c] {p q : M CmrgMemory Bool} (hp : Prepares ref p)
    (hq : Prepares ref q) : Prepares ref (if c then p else q) := by
  split_ifs
  · exact hp
  · exact hq

theorem Prepares.fail (id : ChannelId) (text : String) :
    Prepares ref (do let _ ← Cmrg.fail ref id text; pure false) := by
  intro w _
  have hmemory : ((reject id text).run w).state.memory = w.memory :=
    (ChannelCall.exec_steady .error id _ _ w).memory
  have hfinal : ((do let _ ← Cmrg.fail ref id text; pure false :
      M CmrgMemory Bool).run w).state.memory =
      { w.memory with cmrg := Function.update w.memory.cmrg ref none } := by
    rw [← hmemory]
    rfl
  refine .inl ⟨rfl, ?_⟩
  exact
    { xpcommands := by rw [hfinal]
      commands := by rw [hfinal]
      next := Nat.le_of_eq (by rw [hfinal])
      others := fun c hc => by
        rw [hfinal]
        exact Function.update_of_ne hc _ _
      gone := by
        rw [hfinal]
        exact Function.update_self _ _ _ }

/-- The program lists a new proxy, or changes nothing. -/
def Lists (found : Xpcommand) (p : M CmrgMemory (Option ℕ)) : Prop :=
  ∀ w, ((p.run w).val = none ∧ (p.run w).state.memory = w.memory) ∨
    ((p.run w).val = some w.memory.next ∧ (p.run w).state.memory = { w.memory with
      next := w.memory.next + 1
      xpcommands := Function.update w.memory.xpcommands w.memory.next (some found)
      commands := w.memory.commands ++ [w.memory.next] })

theorem Lists.none (found : Xpcommand) : Lists found (pure none) := fun _ => .inl ⟨rfl, rfl⟩

theorem Lists.ask {α : Type} {found : Xpcommand} {g : Environment → ℕ → α}
    {f : α → M CmrgMemory (Option ℕ)} (h : ∀ a, Lists found (f a)) :
    Lists found (XprcServer.ask g >>= f) :=
  fun w => h (g w.env w.tick) (w.atTick (w.tick + 1))

theorem Lists.ite {c : Prop} [Decidable c] {found : Xpcommand} {p q : M CmrgMemory (Option ℕ)}
    (hp : Lists found p) (hq : Lists found q) : Lists found (if c then p else q) := by
  split_ifs
  · exact hp
  · exact hq

theorem createXpcommand_lists (name description : List UInt8) (phase : XpcommandPhase)
    (propagate : XpcommandPropagation) :
    Lists ⟨.created, name, description, phase, propagate, Option.none, some ref⟩
      (createXpcommand name description phase propagate ref) := by
  refine .ask fun _ => .ite (.ask fun _ => .ite (.ask fun _ => .ite ?_ (.none _)) (.none _))
    (.none _)
  intro w
  rcases locked_cases (l := .registry) (fun _ => Option.none) _ w with
    ⟨err, -, hval, hmemory⟩ | ⟨w₁, hw₁, hval, hmemory⟩
  · exact .inl ⟨hval, hmemory⟩
  · rw [hval, hmemory, ← hw₁]
    refine Lists.ask (fun _ => .ite ?_ (.none _)) w₁
    exact fun w => .inr ⟨rfl, rfl⟩

/-- The proxy becomes that of the command. -/
theorem Prepares.proxy {found : Xpcommand} {p : M CmrgMemory (Option ℕ)} (h : Lists found p)
    (hstate : found.state = .created) (hcallback : found.callback = some ref) (id : ChannelId)
    (text : String) : Prepares ref (do
      match ← p with
      | Option.none => do let _ ← Cmrg.fail ref id text; pure false
      | some proxy => do
        modifyCommand ref fun command => { command with xpcmd := some proxy }
        pure true) := by
  intro w halive
  simp only [Logged.run_bind, Outcome.after_val, Outcome.after_state]
  rcases h w with ⟨hval, hmemory⟩ | ⟨hval, hmemory⟩
  · simp only [hval]
    have hfail : Prepares ref (do let _ ← Cmrg.fail ref id text; pure false) := .fail id text
    rcases hfail (p.run w).state (by rw [hmemory]; exact halive) with ⟨hfalse, hd⟩ | ⟨htrue, -⟩
    · exact .inl ⟨hfalse, by rw [← hmemory]; exact hd.xpcommands,
        by rw [← hmemory]; exact hd.commands, by rw [← hmemory]; exact hd.next, by
          rw [← hmemory]; exact hd.others, hd.gone⟩
    · cases htrue
  · simp only [hval]
    have hfinal : ((do
        modifyCommand ref fun command => { command with xpcmd := some w.memory.next }
        pure true : M CmrgMemory Bool).run (p.run w).state).state.memory = { w.memory with
          next := w.memory.next + 1
          xpcommands := Function.update w.memory.xpcommands w.memory.next (some found)
          commands := w.memory.commands ++ [w.memory.next]
          cmrg := Function.update w.memory.cmrg ref ((w.memory.cmrg ref).map fun command =>
            { command with xpcmd := some w.memory.next }) } := by
      simp [modifyCommand, updateMemory, hmemory]
    refine .inr ⟨rfl, ?_⟩
    constructor
    · rw [hfinal]
      refine ⟨w.memory.next, found, Nat.le_refl _, Nat.lt_succ_self _, hstate,
        hcallback, rfl, rfl, ?_⟩
      obtain ⟨command, hcommand⟩ := Option.isSome_iff_exists.1 halive
      simp [hcommand]
    · rw [hfinal]
      intro c hc
      exact Function.update_of_ne hc _ _

theorem prepareProxy_prepares (request : Request) : Prepares ref (prepareProxy ref request) := by
  unfold prepareProxy
  cases parseMonitor (request.getOption "monitor" "all") with
  | none => exact .fail _ _
  | some monitor =>
    refine .bind (unlisted_modifyCommand _) fun _ => ?_
    cases parsePhase (request.getOption "phase" "before") with
    | none => exact .fail _ _
    | some phase =>
      cases parsePropagation (request.getOption "propagate" "false") with
      | none => exact .fail _ _
      | some propagate =>
        refine .bind (unlisted_copyUnescapedString _) fun name => ?_
        cases name with
        | none => exact .fail _ _
        | some name =>
          refine .bind (unlisted_copyUnescapedString _) fun description => ?_
          cases description with
          | none => exact .fail _ _
          | some description =>
            exact .ite (.fail _ _) (.proxy (createXpcommand_lists _ _ _ _) rfl rfl _ _)

/-- A task can be allocated and scheduled now: its memory, the lock of the schedule, the schedule
itself and the memory of the list are available one after the other. -/
def Schedules (w : World CmrgMemory) : Prop :=
  w.env.alloc w.tick = true ∧ ¬ (w.atTick (w.tick + 1)).refuses .schedule ∧
    w.env.pendingAt .schedule (w.tick + 4) = false ∧ w.env.alloc (w.tick + 5) = true

theorem createTask_scheduled {id : ChannelId} {w : World CmrgMemory} (h : Schedules w) :
    ((createTask ref id).run w).val = (.none, some ref) ∧
      ((createTask ref id).run w).state.channels = w.channels ∧
      ((createTask ref id).run w).state.memory = { w.memory with
        next := w.memory.next + 1
        queue := w.memory.queue ++ [w.memory.next]
        cmrg := Function.update w.memory.cmrg ref ((w.memory.cmrg ref).map fun command =>
          { command with task := some w.memory.next }) } := by
  obtain ⟨halloc, hlock, hpending, hlist⟩ := h
  set w' : World CmrgMemory :=
    { w.atTick (w.tick + 1) with memory := { w.memory with next := w.memory.next + 1 } } with hw'
  have hgranted : ¬ w'.refuses .schedule := hlock
  have hbody : (do
      let err ← scheduleTask w.memory.next
      if err = .none then do
        modifyCommand ref fun command => { command with task := some w.memory.next }
        pure err
      else pure err : M CmrgMemory ErrorCode).run (w'.holding .schedule) =
      ⟨.none, { (w'.holding .schedule).atTick (w.tick + 6) with
        memory := { w.memory with
          next := w.memory.next + 1
          queue := w.memory.queue ++ [w.memory.next]
          cmrg := Function.update w.memory.cmrg ref ((w.memory.cmrg ref).map fun command =>
            { command with task := some w.memory.next }) } }, []⟩ := by
    simp [scheduleTask, destructionPending, Session.allocate, World.holding, hw', hpending, hlist,
      modifyCommand, updateMemory]
  have hrun : (createTask ref id).run w = (do
      let err ← locked .schedule (fun err => err) (do
        let err ← scheduleTask w.memory.next
        if err = .none then do
          modifyCommand ref fun command => { command with task := some w.memory.next }
          pure err
        else pure err)
      if err = .none then pure (.none, some ref)
      else do
        let _ ← fail ref id "failed to schedule task"
        pure (err, none) : M CmrgMemory (ErrorCode × Option ℕ)).run w' := by
    simp only [createTask, Session.allocate, Logged.run_bind, run_ask, Outcome.after_nil, halloc,
      ↓reduceIte]
    rfl
  rw [hrun, Logged.run_bind, locked_granted hgranted, hbody]
  exact ⟨rfl, rfl, rfl⟩

/-- The creation does not fail after it has listed its proxy. -/
def SchedulesTask (request : Request) (version : ℕ) (w : World CmrgMemory) : Prop :=
  Allocates request version w →
    let r := (prepareProxy w.memory.next request).run (allocated request w)
    r.val = true → Schedules r.state

/-- A command that was created is alive, and has a new proxy. -/
theorem Sound.extend {a : ℕ} {found : Xpcommand} (h : Sound live s)
    (hnext : s.world.memory.next ≤ a) (hlt : a < s'.world.memory.next)
    (hstate : found.state = .created) (href : s.world.memory.next = ref)
    (hreflt : ref < s'.world.memory.next)
    (hx : s'.world.memory.xpcommands = Function.update s.world.memory.xpcommands a (some found))
    (hcommands : s'.world.memory.commands = s.world.memory.commands ++ [a])
    (hothers : ∀ c, c ≠ ref → s'.world.memory.cmrg c = s.world.memory.cmrg c)
    (hown : (s'.world.memory.cmrg ref).bind CommandCmrg.xpcmd = some a)
    (hhandlers : s'.handlers = s.handlers) : Sound (ref :: live) s' := by
  have hfree : s.world.memory.xpcommands a = none := (h.fresh a hnext).1
  have hold : ∀ b p, s.world.memory.xpcommands b = some p →
      s'.world.memory.xpcommands b = some p := by
    intro b p hp
    have hne : b ≠ a := by
      rintro rfl
      rw [hfree] at hp
      cases hp
    rw [hx, Function.update_of_ne hne]
    exact hp
  have howned : ∀ b, Owned live s.world.memory b → Owned (ref :: live) s'.world.memory b := by
    rintro b ⟨r, hr, hb⟩
    have hne : r ≠ ref := by
      rintro rfl
      rw [(h.fresh r (Nat.le_of_eq href)).2] at hb
      cases hb
    exact ⟨r, List.mem_cons_of_mem _ hr, by rw [hothers r hne]; exact hb⟩
  refine ⟨?_, fun b => ?_, fun b p hp => ?_, fun handler hmem => ?_, ?_, fun b hb => ?_⟩
  · rw [hcommands]
    refine List.nodup_append.2 ⟨h.nodup, List.pairwise_singleton _ _, ?_⟩
    rintro b hb _ hself rfl
    rw [List.mem_singleton.1 hself, h.listed, hfree] at hb
    cases hb
  · rw [hcommands, hx, List.mem_append, List.mem_singleton]
    by_cases hb : b = a
    · subst hb
      simp
    · rw [Function.update_of_ne hb, ← h.listed b]
      simp [hb]
  · rw [hx] at hp
    by_cases hb : b = a
    · subst hb
      rw [Function.update_self, Option.some.injEq] at hp
      rw [← hp, Fits, hstate]
      exact ⟨ref, List.mem_cons_self, hown⟩
    · rw [Function.update_of_ne hb] at hp
      exact (h.fits b p hp).congr (howned b) (by rw [hhandlers]; exact fun h => h)
  · rw [hhandlers] at hmem
    obtain ⟨p, hp, hserving⟩ := h.handled handler hmem
    exact ⟨p, hold _ p hp, hserving⟩
  · rw [hhandlers]
    exact h.once
  · have hle : s.world.memory.next ≤ b := by omega
    rw [hx, Function.update_of_ne (by omega), hothers b (by omega)]
    exact h.fresh b hle

theorem create_sound (h : Sound live s) (request : Request) (version : ℕ)
    (hschedules : SchedulesTask request version s.world) :
    let r := (lift (create request version)).run s
    (r.val.2 = none → Sound live r.state) ∧
      ∀ ref, r.val.2 = some ref → Sound (ref :: live) r.state := by
  intro r
  rcases create_cases request version s.world with ⟨hspeaks, hval⟩ | ⟨hallocates, hstate, hval⟩
  · refine ⟨fun _ => h.same ⟨hspeaks.memory, rfl⟩, fun ref href => ?_⟩
    exact absurd (hval.symm.trans href) (by simp)
  set w₀ := allocated request s.world with hw₀
  set ref := s.world.memory.next with href
  have halive : (w₀.memory.cmrg ref).isSome := by
    simp [hw₀, allocated, href]
  have hothers₀ : ∀ c, c ≠ ref → w₀.memory.cmrg c = s.world.memory.cmrg c :=
    fun c hc => Function.update_of_ne hc _ _
  have hsplits : Splits ref request.channelId (configure ref request) (prepareProxy ref request) :=
    configure_splits request
  have hprepares : Prepares ref (prepareProxy ref request) := prepareProxy_prepares request
  rcases hprepares w₀ halive with ⟨hfalse, hd⟩ | ⟨htrue, hl⟩
  · -- the creation failed and left nothing behind
    rcases hsplits w₀ with ⟨-, hv, hs⟩ | ⟨htrue, -⟩
    swap
    · rw [hfalse] at htrue
      cases htrue
    refine ⟨fun _ => ?_, fun ref' href' => ?_⟩
    · have hfinal : r.state.world = ((prepareProxy ref request).run w₀).state := hstate.trans hs
      refine h.tame ⟨?_, ?_, ?_, fun c => ?_⟩ rfl
      · rw [hfinal]; exact hd.xpcommands
      · rw [hfinal]; exact hd.commands
      · rw [hfinal]; exact Nat.le_trans (Nat.le_succ _) hd.next
      · rw [hfinal]
        by_cases hc : c = ref
        · rw [hc, hd.gone, (h.fresh ref (Nat.le_refl _)).2]
        · rw [hd.others c hc, hothers₀ c hc]
    · exact absurd ((congrArg Prod.snd (hval.trans hv)).symm.trans href') (by simp)
  · -- the proxy was listed, and so the task is scheduled
    rcases hsplits w₀ with ⟨hfalse, -⟩ | ⟨-, hv, hs⟩
    · rw [htrue] at hfalse
      cases hfalse
    obtain ⟨hvtask, -, hmtask⟩ := @createTask_scheduled ref request.channelId _
      (hschedules hallocates htrue)
    have hresult : r.val = (.none, some ref) := hval.trans (hv.trans hvtask)
    refine ⟨fun hnone => absurd ((congrArg Prod.snd hresult).symm.trans hnone) (by simp),
      fun ref' href' => ?_⟩
    obtain rfl : ref = ref' := Option.some.inj ((congrArg Prod.snd hresult).symm.trans href')
    obtain ⟨⟨a, found, hle, hlt, hcreated, -, hx, hcommands, hown⟩, hothers⟩ := hl
    have hmemory : r.state.world.memory = _ :=
      (congrArg World.memory (hstate.trans hs)).trans hmtask
    have hnext : ref < a := hle
    refine h.extend (a := a) (Nat.le_of_lt hnext) ?_ hcreated rfl ?_ ?_ ?_ ?_ ?_ rfl
    · rw [hmemory]; exact Nat.lt_succ_of_lt hlt
    · rw [hmemory]; exact Nat.lt_succ_of_lt (Nat.lt_trans hnext hlt)
    · rw [hmemory]; exact hx
    · rw [hmemory]; exact hcommands
    · intro c hc
      rw [hmemory]
      dsimp only
      rw [Function.update_of_ne hc, hothers c hc, hothers₀ c hc]
    · rw [hmemory]
      dsimp only
      rw [Function.update_self]
      cases hcommand : ((prepareProxy ref request).run w₀).state.memory.cmrg ref with
      | none => rw [hcommand] at hown; cases hown
      | some command => rw [hcommand] at hown; exact hown

/-! ### The other steps -/

theorem processPost_sound (h : Sound live s)
    (hregistered : ∀ command, s.world.memory.cmrg ref = some command → command.failed = true →
      Registered s.world.memory ref) :
    let r := (lift (processPost ref)).run s
    Sound live r.state ∧ (r.val = some .none → Sound (live.filter (· ≠ ref)) r.state) := by
  intro r
  cases hcommand : s.world.memory.cmrg ref with
  | none =>
    have hrun : r = ⟨none, s, []⟩ := by simp [r, processPost, readMemory, hcommand]
    rw [hrun]
    exact ⟨h, fun hnone => absurd hnone (by simp)⟩
  | some command =>
    by_cases hfailed : command.failed = true
    · set w₁ := ((errorChannel command.channelId currentTimeReference none :
        M CmrgMemory ErrorCode).run s.world).state with hw₁
      have hsame : Same s { s with world := w₁ } :=
        ⟨(ChannelCall.exec_steady .error _ _ _ s.world).memory, rfl⟩
      have hreg : Registered w₁.memory ref := by
        rw [show w₁.memory = s.world.memory from hsame.1]
        exact hregistered command hcommand hfailed
      obtain ⟨hsound, hend⟩ := terminate_sound (h.same hsame) hreg
      have hstate : r.state = ((lift (terminate (some ref))).run { s with world := w₁ }).state := by
        simp [r, processPost, readMemory, hcommand, hfailed, hw₁]
      have hval : r.val = some ((lift (terminate (some ref))).run { s with world := w₁ }).val := by
        simp [r, processPost, readMemory, hcommand, hfailed, hw₁]
      rw [hstate, hval]
      exact ⟨hsound, fun hnone => hend (Option.some.inj hnone)⟩
    · have hrun : r = ⟨none, s, []⟩ := by simp [r, processPost, readMemory, hcommand, hfailed]
      rw [hrun]
      exact ⟨h, fun hnone => absurd hnone (by simp)⟩

theorem destroy_sound (h : Sound live s) (href : ref ∉ live) :
    Sound live ((lift (destroy ref)).run s).state := by
  refine ⟨h.nodup, h.listed, fun a found hp => ?_, h.handled, h.once, fun a ha => ?_⟩
  · refine Fits.congr (s := s) ?_ (fun hhandled => hhandled) (h.fits a found hp)
    rintro ⟨r, hr, hown⟩
    have hne : r ≠ ref := by
      rintro rfl
      exact href hr
    exact ⟨r, hr, (congrArg (Option.bind · CommandCmrg.xpcmd)
      (Function.update_of_ne hne _ _)).trans hown⟩
  · refine ⟨(h.fresh a ha).1, ?_⟩
    change Function.update s.world.memory.cmrg ref none a = none
    by_cases hne : a = ref
    · rw [hne, Function.update_self]
    · rw [Function.update_of_ne hne]
      exact (h.fresh a ha).2

/-- Maintenance keeps the registry in order.  If it gets the lock it reports no error and leaves no
proxy dropped. -/
theorem unregisterDroppedXpcommands_spec (h : Sound live s) :
    let r := unregisterDroppedXpcommands.run s
    Sound live r.state ∧ (¬ s.world.refuses .registry → r.val = .none ∧
      ∀ a found, r.state.world.memory.xpcommands a = some found → found.state ≠ .dropped) := by
  intro r
  have hgranted : ∀ s₁, Same s s₁ → Sound live ((do
        let commands ← lift (readMemory CmrgMemory.commands)
        unregisterDroppedLoop commands .none : X ErrorCode).run s₁).state ∧
      ((do
        let commands ← lift (readMemory CmrgMemory.commands)
        unregisterDroppedLoop commands .none : X ErrorCode).run s₁).val = .none ∧
      ∀ a found, ((do
        let commands ← lift (readMemory CmrgMemory.commands)
        unregisterDroppedLoop commands .none : X ErrorCode).run
          s₁).state.world.memory.xpcommands a = some found → found.state ≠ .dropped := by
    intro s₁ hsame
    have h₁ := h.same hsame
    simp only [Logged.run_bind, run_lift_readMemory, Outcome.after_nil]
    obtain ⟨hval, hsound, hkept⟩ := unregisterDroppedLoop_spec s₁.world.memory.commands .none h₁
    refine ⟨hsound, hval, fun a found hp => (hkept a found hp).2 ?_⟩
    rw [h₁.listed a, (hkept a found hp).1]
    rfl
  refine ⟨?_, fun hlock => ?_⟩
  · rcases lockedRegistry_cases (fun _ => ErrorCode.mutexFailed) (do
      let commands ← lift (readMemory CmrgMemory.commands)
      unregisterDroppedLoop commands .none : X ErrorCode) s with
      ⟨err, -, -, hsame⟩ | ⟨s₁, hsame, -, hend⟩
    · exact h.same hsame.same
    · exact (hgranted s₁ hsame.same).1.same hend.same
  · obtain ⟨s₁, hsame, hval, hend⟩ := lockedRegistry_granted (fun _ => .mutexFailed) (do
      let commands ← lift (readMemory CmrgMemory.commands)
      unregisterDroppedLoop commands .none : X ErrorCode) hlock
    obtain ⟨-, hnone, hdropped⟩ := hgranted s₁ hsame.same
    refine ⟨hval.trans hnone, fun a found hp => hdropped a found ?_⟩
    rw [← hend.same.1]
    exact hp

/-- Without commands that are alive, every proxy of the registry is dropped. -/
theorem Sound.empty (h : Sound [] s)
    (hdropped : ∀ a found, s.world.memory.xpcommands a = some found → found.state ≠ .dropped) :
    s.world.memory.commands = [] ∧ s.handlers = [] := by
  have hnone : ∀ a, s.world.memory.xpcommands a = none := by
    intro a
    cases hp : s.world.memory.xpcommands a with
    | none => rfl
    | some found =>
      have hfits := h.fits a found hp
      have hstate := hdropped a found hp
      unfold Fits at hfits
      cases hf : found.state with
      | created => rw [hf] at hfits; obtain ⟨ref, href, -⟩ := hfits; cases href
      | registered => rw [hf] at hfits; obtain ⟨⟨ref, href, -⟩, -⟩ := hfits; cases href
      | dropped => exact absurd hf hstate
      | destroyed => rw [hf] at hfits; exact hfits.elim
  constructor
  · refine List.eq_nil_iff_forall_not_mem.2 fun a ha => ?_
    rw [h.listed, hnone a] at ha
    cases ha
  · refine List.eq_nil_iff_forall_not_mem.2 fun handler hmem => ?_
    obtain ⟨found, hp, -⟩ := h.handled handler hmem
    rw [hnone] at hp
    cases hp

end

end Cmrg

/-! ### Runs -/

/-- CMRG commands and the registry they use; `live` are the commands that were created and have not
been terminated. -/
structure CmrgRun where
  xp : XpWorld
  live : List ℕ

/-- What can happen to the commands and the registry. -/
inductive CmrgAct where
  | create (request : Request) (version : ℕ)
  | flightloop (ref : ℕ) (findCommand createCommand : Option ℕ)
  | post (ref : ℕ)
  | event (inCommand : ℕ) (inPhase : XplmCommandPhase) (inRefcon : Option ℕ)
  | term (ref : ℕ)
  | free (ref : ℕ)
  | maintain
  | elapse (world : World CmrgMemory)

open X Xpcommands in
/-- The steps.  A command is freed only when it has been terminated; between the steps everything
but the memory of the commands may change. -/
inductive CmrgStep : CmrgRun → CmrgAct → CmrgRun → Prop
  | create {s : CmrgRun} {request : Request} {version : ℕ} :
      CmrgStep s (.create request version)
        { xp := ((lift (Cmrg.create request version)).run s.xp).state
          live := ((lift (Cmrg.create request version)).run s.xp).val.2.toList ++ s.live }
  | flightloop {s : CmrgRun} {ref : ℕ} {findCommand createCommand : Option ℕ} :
      CmrgStep s (.flightloop ref findCommand createCommand)
        { s with xp := ((Cmrg.processFlightloop ref findCommand createCommand).run s.xp).state }
  | post {s : CmrgRun} {ref : ℕ} :
      CmrgStep s (.post ref)
        { xp := ((lift (Cmrg.processPost ref)).run s.xp).state
          live := if ((lift (Cmrg.processPost ref)).run s.xp).val = some .none
            then s.live.filter (· ≠ ref) else s.live }
  | event {s : CmrgRun} {inCommand : ℕ} {inPhase : XplmCommandPhase} {inRefcon : Option ℕ} :
      CmrgStep s (.event inCommand inPhase inRefcon)
        { s with
          xp := ((lift (xpCommandHandler Cmrg.handleEvent inCommand inPhase inRefcon)).run
            s.xp).state }
  | term {s : CmrgRun} {ref : ℕ} :
      CmrgStep s (.term ref)
        { xp := ((lift (Cmrg.terminate (some ref))).run s.xp).state
          live := if ((lift (Cmrg.terminate (some ref))).run s.xp).val = .none
            then s.live.filter (· ≠ ref) else s.live }
  | free {s : CmrgRun} {ref : ℕ} (h : ref ∉ s.live) :
      CmrgStep s (.free ref) { s with xp := ((lift (Cmrg.destroy ref)).run s.xp).state }
  | maintain {s : CmrgRun} :
      CmrgStep s .maintain { s with xp := (unregisterDroppedXpcommands.run s.xp).state }
  | elapse {s : CmrgRun} {world : World CmrgMemory} (h : world.memory = s.xp.world.memory) :
      CmrgStep s (.elapse world) { s with xp := { s.xp with world := world } }

/-- A registry without X-Plane commands. -/
def CmrgMemory.empty : CmrgMemory := ⟨fun _ => none, [], fun _ => none, [], 0⟩

/-- All runs, starting with an empty registry. -/
def cmrgSystem : System CmrgRun CmrgAct where
  init s := s.xp.world.memory = .empty ∧ s.xp.handlers = [] ∧ s.live = []
  next := CmrgStep

/-- No creation fails after its proxy was listed, and no command is terminated whose proxy was
created and never registered. -/
def ProxyRegistered (s : CmrgRun) : CmrgAct → Prop
  | .create request version => Cmrg.SchedulesTask request version s.xp.world
  | .post ref => ∀ command, s.xp.world.memory.cmrg ref = some command → command.failed = true →
      Cmrg.Registered s.xp.world.memory ref
  | .term ref => Cmrg.Registered s.xp.world.memory ref
  | _ => True

/-- Once all commands are terminated, maintenance that gets the lock of the registry succeeds,
empties the list and removes all handlers, and then the registry can be destroyed. -/
def CmrgRun.Cleans (s : CmrgRun) : Prop :=
  s.live = [] → ∀ w : World CmrgMemory, w.memory = s.xp.world.memory → ¬ w.refuses .registry →
    let r := Xpcommands.unregisterDroppedXpcommands.run { s.xp with world := w }
    r.val = .none ∧ r.state.world.memory.commands = [] ∧ r.state.handlers = [] ∧
      ∀ w' : World CmrgMemory, w'.memory = r.state.world.memory →
        (0 < w'.depth .registry ∨ w'.env.mtxLock w'.tick = true) →
        w'.env.pendingAt .registry (w'.tick + 1) = false →
        (Xpcommands.destroyXpcommandRegistry.run { r.state with world := w' }).val = .none

theorem CmrgStep.sound {s s' : CmrgRun} {act : CmrgAct} (h : Cmrg.Sound s.live s.xp)
    (hguard : ProxyRegistered s act) (hn : CmrgStep s act s') : Cmrg.Sound s'.live s'.xp := by
  cases hn with
  | @create request version =>
    obtain ⟨hnone, hsome⟩ := Cmrg.create_sound h request version hguard
    dsimp only
    cases hval : ((X.lift (Cmrg.create request version)).run s.xp).val.2 with
    | none => exact hnone hval
    | some ref => exact hsome ref hval
  | flightloop => exact Cmrg.processFlightloop_sound h _ _
  | @post ref =>
    obtain ⟨hsound, hend⟩ := Cmrg.processPost_sound h hguard
    dsimp only
    split_ifs with hval
    · exact hend hval
    · exact hsound
  | event => exact h.lift_tame (Cmrg.tame_xpCommandHandler _ _ _)
  | @term ref =>
    obtain ⟨hsound, hend⟩ := Cmrg.terminate_sound h hguard
    dsimp only
    split_ifs with hval
    · exact hend hval
    · exact hsound
  | free href => exact Cmrg.destroy_sound h href
  | maintain => exact (Cmrg.unregisterDroppedXpcommands_spec h).1
  | elapse hw => exact h.same ⟨hw, rfl⟩

theorem cmrg_sound_of_reachable {s : CmrgRun}
    (h : (cmrgSystem.restrict ProxyRegistered).Reachable s) : Cmrg.Sound s.live s.xp := by
  refine h.invariant ?_ fun s act s' _ hs hn => hn.2.sound hs hn.1
  rintro s ⟨hmemory, hhandlers, -⟩
  refine ⟨?_, ?_, ?_, ?_, ?_, ?_⟩
  · rw [hmemory]; exact List.Pairwise.nil
  · rw [hmemory]; simp [CmrgMemory.empty]
  · rw [hmemory]; intro a found hp; cases hp
  · rw [hhandlers]; intro handler hmem; cases hmem
  · rw [hhandlers]; exact List.Pairwise.nil
  · rw [hmemory]; exact fun _ _ => ⟨rfl, rfl⟩

/-- An empty registry can be destroyed. -/
theorem destroyXpcommandRegistry_of_empty {s : XpWorld} (hempty : s.world.memory.commands = [])
    (hlock : 0 < s.world.depth .registry ∨ s.world.env.mtxLock s.world.tick = true)
    (hpending : s.world.env.pendingAt .registry (s.world.tick + 1) = false) :
    (Xpcommands.destroyXpcommandRegistry.run s).val = .none := by
  simp only [Xpcommands.destroyXpcommandRegistry, Logged.run_bind, X.run_lift, run_mtxLock, hlock,
    ↓reduceIte, destructionPending, run_ask, Xpcommands.readMemory, Logged.run_read,
    Outcome.after_val,
    World.apply_env, World.apply_tick, World.atTick_env, World.atTick_tick, hpending,
    Bool.false_eq_true, World.apply_memory, World.atTick_memory, hempty, List.length_nil, ne_eq,
    not_true_eq_false]
  split_ifs <;> rfl

/-- **The registry of X-Plane commands is emptied.**  In every run in which no creation fails after
its proxy was listed, and no command is terminated whose proxy was never registered: once all
commands have been terminated, maintenance succeeds, leaves an empty list and no handler with
X-Plane, and the registry can be destroyed. -/
theorem cmrg_registry_emptied {s : CmrgRun}
    (h : (cmrgSystem.restrict ProxyRegistered).Reachable s) : s.Cleans := by
  intro hlive w hw hlock r
  have hsound : Cmrg.Sound [] { s.xp with world := w } := by
    rw [← hlive]
    exact (cmrg_sound_of_reachable h).same ⟨hw, rfl⟩
  obtain ⟨hend, hgranted⟩ := Cmrg.unregisterDroppedXpcommands_spec hsound
  obtain ⟨hval, hdropped⟩ := hgranted hlock
  obtain ⟨hcommands, hhandlers⟩ := hend.empty hdropped
  refine ⟨hval, hcommands, hhandlers, fun w' hw' hmtx hpending => ?_⟩
  refine destroyXpcommandRegistry_of_empty ?_ hmtx hpending
  rw [show ({ r.state with world := w' } : XpWorld).world.memory = r.state.world.memory from hw']
  exact hcommands

/-- No command exists, and nothing fails; the session has a new channel `aaaa`. -/
def cmrgIdle : CmrgRun where
  xp := ⟨{ World.idle .empty with channels := .single ⟨0, .initial, false, none, none⟩ }, []⟩
  live := []

/-- A request for an X-Plane command `x`. -/
def cmrgRequest : Request := ⟨0, bytes "CMRG", [], [bytes "x"]⟩

/-- The X-Plane command is found in the flight loop and gets its handler; after the termination
maintenance removes both. -/
theorem cmrg_registry_emptied_of_registered :
    ∃ s : CmrgRun, s.live = [] ∧ s.xp.world.memory.commands = [1] ∧ s.xp.handlers.length = 1 ∧
      s.Cleans := by
  have h₀ : (cmrgSystem.restrict ProxyRegistered).Reachable cmrgIdle := .start ⟨rfl, rfl, rfl⟩
  have h₁ := h₀.allowed (.create cmrgRequest 1)
    (fun _ _ => ⟨by decide +kernel, by decide +kernel, by decide +kernel, by decide +kernel⟩)
      .create
  have h₂ := h₁.allowed (.flightloop 0 (some 7) none) trivial .flightloop
  have h₃ := h₂.allowed (.term 0) (fun a found ha hfound => ?_) .term
  · exact ⟨_, by decide +kernel, by decide +kernel, by decide +kernel, cmrg_registry_emptied h₃⟩
  · have hone : 1 = a := Option.some.inj (Eq.trans (by decide +kernel) ha)
    subst hone
    intro hcreated
    have hmap := congrArg (Option.map Xpcommand.state) hfound
    rw [Option.map_some, hcreated] at hmap
    revert hmap
    decide +kernel

/-- A command that is terminated before the first flight loop leaves a dropped proxy that was never
known to X-Plane: maintenance fails on it, and it stays listed. -/
theorem cmrg_registry_stuck : ∃ s, cmrgSystem.Reachable s ∧ ¬ s.Cleans := by
  have h₀ : cmrgSystem.Reachable cmrgIdle := .start ⟨rfl, rfl, rfl⟩
  have h₁ := h₀.step (CmrgAct.create cmrgRequest 1) (CmrgStep.create (s := cmrgIdle))
  have h₂ := h₁.step (CmrgAct.term 0) CmrgStep.term
  refine ⟨_, h₂, fun hcleans => ?_⟩
  obtain ⟨hval, -⟩ := hcleans (by decide +kernel) _ rfl (by decide +kernel)
  revert hval
  decide +kernel

end XprcServer
