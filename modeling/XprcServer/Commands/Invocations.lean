import XprcServer.Commands.CmrgLifecycle

/-!
# Invocations of X-Plane commands

Proxies are created, registered, dropped and deregistered in any order, and X-Plane calls
`xp_command_handler` for those it knows a handler of, at any moment in between.  What the handler
returns decides whether X-Plane goes on with the event.

* `Registry.Wired` : every handler that X-Plane has belongs to a proxy that is registered or
  dropped;
* `Registry.Evolves` : what no operation changes about a proxy that stays;
* `invocation_served_iff` : an invocation returns the propagation the proxy was created with unless
  the proxy is dropped and does not propagate; the callback is called exactly for proxies that are
  registered.

What a program does for any callback tells whether it calls the callback (`Calls`, `CallsNothing`).
-/

namespace XprcServer

open Lib
open Logged (Leads)

namespace Registry

open Session X Xpcommands
open Cmrg (Serving Tame Lists)

/-- What X-Plane runs when it calls a handler. -/
def invoke (callback : ℕ → XplmCommandPhase → M CmrgMemory Unit) (handler : CommandHandler)
    (phase : XplmCommandPhase) : M CmrgMemory XpcommandPropagation :=
  xpCommandHandler callback handler.xpRef phase (some handler.proxy)

/-- The invocation calls the callback with `ref`, once and while it holds the lock: what the
invocation leaves is what the callback leaves. -/
def Calls (w : World CmrgMemory) (handler : CommandHandler) (phase : XplmCommandPhase)
    (ref : ℕ) : Prop :=
  ∀ callback,
    ((invoke callback handler phase).run w).state =
      ((callback ref phase).run (w.holding .registry)).state.apply (.unlock .registry) ∧
    ((invoke callback handler phase).run w).ops =
      .lock .registry :: (((callback ref phase).run (w.holding .registry)).ops ++
        [.unlock .registry])

/-- The invocation does not depend on the callback. -/
def CallsNothing (w : World CmrgMemory) (handler : CommandHandler)
    (phase : XplmCommandPhase) : Prop :=
  ∀ callback callback', (invoke callback handler phase).run w =
    (invoke callback' handler phase).run w

/-! ### The registry between the operations -/

/-- Every handler that X-Plane has belongs to a proxy that is registered or dropped. -/
structure Wired (s : XpWorld) : Prop where
  handled : ∀ handler ∈ s.handlers, ∃ found,
    s.world.memory.xpcommands handler.proxy = some found ∧ Serving handler found
  once : s.handlers.Nodup
  fresh : ∀ a, s.world.memory.next ≤ a → s.world.memory.xpcommands a = none

/-- A proxy keeps how it propagates and whom it calls back, and it stays dropped. -/
def Preserved (found found' : Xpcommand) : Prop :=
  found'.propagate = found.propagate ∧ found'.callback = found.callback ∧
    (found.state = .dropped → found'.state = .dropped)

/-- What no operation but the creation does: nothing new appears, and the proxies that stay are
preserved. -/
structure Evolves (s s' : XpWorld) : Prop where
  next : s.world.memory.next ≤ s'.world.memory.next
  preserved : ∀ a found', s'.world.memory.xpcommands a = some found' →
    ∃ found, s.world.memory.xpcommands a = some found ∧ Preserved found found'

/-- An operation on the registry. -/
structure Operates (s s' : XpWorld) : Prop where
  wired : Wired s'
  evolves : Evolves s s'

variable {s s' s'' : XpWorld} {a : ℕ} {found : Xpcommand}

theorem Preserved.refl (found : Xpcommand) : Preserved found found := ⟨rfl, rfl, fun h => h⟩

theorem Evolves.refl (s : XpWorld) : Evolves s s :=
  ⟨Nat.le_refl _, fun _ found hp => ⟨found, hp, .refl found⟩⟩

theorem Evolves.trans (h : Evolves s s') (h' : Evolves s' s'') : Evolves s s'' := by
  refine ⟨Nat.le_trans h.next h'.next, fun a found'' hp'' => ?_⟩
  obtain ⟨found', hp', hpropagate', hcallback', hdropped'⟩ := h'.preserved a found'' hp''
  obtain ⟨found, hp, hpropagate, hcallback, hdropped⟩ := h.preserved a found' hp'
  exact ⟨found, hp, hpropagate'.trans hpropagate, hcallback'.trans hcallback,
    fun hstate => hdropped' (hdropped hstate)⟩

theorem Wired.tame (h : Wired s) (ht : Tame s.world s'.world)
    (hhandlers : s'.handlers = s.handlers) :
    Operates s s' := by
  refine ⟨⟨?_, ?_, fun b hb => ?_⟩, ht.next, fun b found hp => ?_⟩
  · rw [hhandlers, ht.xpcommands]
    exact h.handled
  · rw [hhandlers]
    exact h.once
  · rw [ht.xpcommands]
    exact h.fresh b (Nat.le_trans ht.next hb)
  · rw [ht.xpcommands] at hp
    exact ⟨found, hp, .refl found⟩

theorem Wired.same (h : Wired s) (hs : Cmrg.Same s s') : Operates s s' :=
  h.tame (Cmrg.tame_of_memory hs.1) hs.2

theorem Wired.lt_next (h : Wired s) (hp : s.world.memory.xpcommands a = some found) :
    a < s.world.memory.next := by
  by_contra hle
  rw [h.fresh a (Nat.le_of_not_lt hle)] at hp
  cases hp

/-- One proxy is changed or freed, and with it its handler. -/
theorem Wired.change {q : Option Xpcommand} (h : Wired s)
    (hp : s.world.memory.xpcommands a = some found)
    (hx : s'.world.memory.xpcommands = Function.update s.world.memory.xpcommands a q)
    (hnext : s'.world.memory.next = s.world.memory.next)
    (hothers : ∀ handler : CommandHandler, handler.proxy ≠ a →
      (handler ∈ s'.handlers → handler ∈ s.handlers))
    (hserving : ∀ handler ∈ s'.handlers, handler.proxy = a → ∃ p, q = some p ∧ Serving handler p)
    (honce : s'.handlers.Nodup) (hpreserved : ∀ p, q = some p → Preserved found p) :
    Operates s s' := by
  refine ⟨⟨fun handler hhandler => ?_, honce, fun b hb => ?_⟩, Nat.le_of_eq hnext.symm,
    fun b found' hb => ?_⟩
  · rw [hx]
    by_cases hb : handler.proxy = a
    · rw [hb, Function.update_self]
      exact hserving handler hhandler hb
    · rw [Function.update_of_ne hb]
      exact h.handled handler (hothers handler hb hhandler)
  · rw [hnext] at hb
    rw [hx, Function.update_of_ne (Nat.ne_of_gt (Nat.lt_of_lt_of_le (h.lt_next hp) hb))]
    exact h.fresh b hb
  · rw [hx] at hb
    by_cases hba : b = a
    · subst hba
      rw [Function.update_self] at hb
      exact ⟨found, hp, hpreserved found' hb⟩
    · rw [Function.update_of_ne hba] at hb
      exact ⟨found', hb, .refl found'⟩

theorem Wired.not_handled (h : Wired s) (hp : s.world.memory.xpcommands a = some found)
    (hstate : ¬ (found.state = .registered ∨ found.state = .dropped)) :
    ∀ handler ∈ s.handlers, handler.proxy ≠ a := by
  rintro handler hmem rfl
  obtain ⟨p, hp', hserving, -⟩ := h.handled handler hmem
  obtain rfl : found = p := Option.some.inj (hp.symm.trans hp')
  exact hstate hserving

theorem Wired.handler_eq (h : Wired s) (hp : s.world.memory.xpcommands a = some found)
    {xpRef : ℕ} (hxp : found.xpRef = some xpRef) {handler : CommandHandler}
    (hmem : handler ∈ s.handlers) (ha : handler.proxy = a) : handler = ⟨xpRef, found.phase, a⟩ := by
  obtain ⟨p, hp', -, hxp', hphase⟩ := h.handled handler hmem
  rw [ha] at hp'
  obtain rfl : found = p := Option.some.inj (hp.symm.trans hp')
  rw [hxp, Option.some.injEq] at hxp'
  obtain ⟨_, _, _⟩ := handler
  simp_all

/-! ### The operations -/

theorem registerHandler_operates {xpRef : ℕ} (h : Wired s)
    (hp : s.world.memory.xpcommands a = some found) (hstate : found.state = .created) :
    Operates s ((registerHandler a found xpRef).run s).state := by
  have hnone := h.not_handled hp (by simp [hstate])
  set r := ((registerHandler a found xpRef).run s).state with hr
  have hmemory : r.world.memory = { s.world.memory with
      xpcommands := Function.update s.world.memory.xpcommands a
        (some { found with xpRef := some xpRef, state := .registered }) } := by
    simp [hr, registerHandler, registerCommandHandler, modifyXpcommand, updateMemory, hp]
  have hhandlers : r.handlers = s.handlers ++ [⟨xpRef, found.phase, a⟩] := rfl
  refine h.change (q := some { found with xpRef := some xpRef, state := .registered }) hp
    (by rw [hmemory]) (by rw [hmemory]) ?_ ?_ ?_ ?_
  · intro handler hne hmem
    rw [hhandlers, List.mem_append, List.mem_singleton] at hmem
    refine hmem.resolve_right ?_
    rintro rfl
    exact hne rfl
  · intro handler hmem ha
    rw [hhandlers, List.mem_append, List.mem_singleton] at hmem
    rcases hmem with hmem | rfl
    · exact absurd ha (hnone handler hmem)
    · exact ⟨_, rfl, .inl rfl, rfl, rfl⟩
  · rw [hhandlers]
    refine List.nodup_append.2 ⟨h.once, List.pairwise_singleton _ _, ?_⟩
    rintro handler hmem _ hself rfl
    exact hnone handler hmem (by rw [List.mem_singleton.1 hself])
  · rintro _ ⟨⟩
    exact ⟨rfl, rfl, fun hdropped => by rw [hstate] at hdropped; cases hdropped⟩

/-- A proxy that X-Plane does not call is changed in place. -/
theorem modify_operates (h : Wired s) (hp : s.world.memory.xpcommands a = some found)
    {f : Xpcommand → Xpcommand}
    (hserving : ∀ handler, Serving handler found → Serving handler (f found))
    (hpreserved : Preserved found (f found)) :
    Operates s ((lift (modifyXpcommand a f)).run s).state := by
  have hmemory := Cmrg.modifyXpcommand_memory (f := f) hp
  refine h.change (q := some (f found)) hp (congrArg CmrgMemory.xpcommands hmemory) rfl
    (fun _ _ hmem => hmem) ?_ h.once ?_
  · intro handler hmem ha
    obtain ⟨p, hp', hserves⟩ := h.handled handler hmem
    rw [ha] at hp'
    obtain rfl : found = p := Option.some.inj (hp.symm.trans hp')
    exact ⟨_, rfl, hserving handler hserves⟩
  · rintro _ ⟨⟩
    exact hpreserved

/-- An operation under the lock of the registry, between moments at which nothing happens to it. -/
theorem Wired.between {s₁ s₂ : XpWorld} (h : Wired s) (hsame : Cmrg.Same s s₁)
    (hop : Wired s₁ → Operates s₁ s₂) (hend : Cmrg.Same s₂ s') : Operates s s' := by
  have h₁ := h.same hsame
  have h₂ := hop h₁.wired
  have h₃ := h₂.wired.same hend
  exact ⟨h₃.wired, (h₁.evolves.trans h₂.evolves).trans h₃.evolves⟩

theorem Wired.stays (h : Wired s) : Operates s s := ⟨h, .refl s⟩

theorem registerXpcommand_operates (h : Wired s) (findCommand createCommand proxy : Option ℕ) :
    Operates s ((registerXpcommand findCommand createCommand proxy).run s).state := by
  cases proxy with
  | none => exact h.stays
  | some a =>
    simp only [registerXpcommand, Logged.run_bind, Cmrg.run_readXpcommand, Outcome.after_nil]
    cases s.world.memory.xpcommands a with
    | none => exact h.stays
    | some found =>
      simp only [Logged.run_ite]
      split_ifs
      · exact h.stays
      rcases Cmrg.lockedRegistry_cases (fun err => err) _ s with
        ⟨err, -, -, hsame⟩ | ⟨s₁, hsame, -, hend⟩
      · exact h.same hsame.same
      refine h.between hsame.same (fun h₁ => ?_) hend.same
      simp only [Logged.run_bind, Cmrg.run_readXpcommand, Outcome.after_nil]
      cases hp : s₁.world.memory.xpcommands a with
      | none => exact h₁.stays
      | some found =>
        simp only [Logged.run_ite]
        split_ifs with hstate
        · exact h₁.stays
        rw [Classical.not_not] at hstate
        -- `XPLMFindCommand` or `XPLMCreateCommand` has a command, or neither has
        cases findCommand with
        | some xpRef => exact registerHandler_operates h₁ hp hstate
        | none =>
          cases createCommand with
          | some xpRef => exact registerHandler_operates h₁ hp hstate
          | none =>
            refine modify_operates h₁ hp (fun handler hserves => ?_) ⟨rfl, rfl, fun h => h⟩
            exact absurd hserves.1 (by simp [hstate])

/-- The end of a proxy: with it goes its handler. -/
theorem unregisterDestroyItem_operates (h : Wired s) (a : ℕ) :
    Operates s ((unregisterDestroyItem a).run s).state := by
  simp only [unregisterDestroyItem, Logged.run_bind, Cmrg.run_readXpcommand, Outcome.after_nil]
  cases hp : s.world.memory.xpcommands a with
  | none => exact h.stays
  | some found =>
    simp only [Logged.run_ite]
    split_ifs with hstate
    · cases hxp : found.xpRef with
      | none => exact h.stays
      | some xpRef =>
        refine h.change (q := none) hp rfl rfl (fun _ _ hmem => List.mem_of_mem_erase hmem) ?_
          (h.once.erase _) (fun _ hq => by cases hq)
        intro handler hmem ha
        -- the handler of the proxy is the one that was erased
        have heq := h.handler_eq hp hxp (List.mem_of_mem_erase hmem) ha
        rw [heq] at hmem
        exact absurd hmem h.once.not_mem_erase
    · refine h.change (q := none) hp rfl rfl (fun _ _ hmem => hmem) ?_ h.once
        (fun _ hq => by cases hq)
      intro handler hmem ha
      exact absurd ha (h.not_handled hp hstate handler hmem)

theorem unregisterDestroyXpcommand_operates (h : Wired s) (proxy : Option ℕ) :
    Operates s ((unregisterDestroyXpcommand proxy).run s).state := by
  cases proxy with
  | none => exact h.stays
  | some a =>
    rcases Cmrg.lockedRegistry_cases (fun err => err) (do
        let found ← lift (readMemory fun m => decide (a ∈ m.commands))
        if found then unregisterDestroyItem a else pure .unspecific) s with
      ⟨err, -, -, hsame⟩ | ⟨s₁, hsame, -, hend⟩
    · exact h.same hsame.same
    refine h.between hsame.same (fun h₁ => ?_) hend.same
    simp only [Logged.run_bind, Cmrg.run_lift_readMemory, Outcome.after_nil]
    by_cases hmem : a ∈ s₁.world.memory.commands
    · simp only [hmem, decide_true, ↓reduceIte]
      exact unregisterDestroyItem_operates h₁ a
    · simp only [hmem, decide_false, Bool.false_eq_true, ↓reduceIte]
      exact h₁.stays

theorem unregisterDroppedLoop_operates (list : List ℕ) (outErr : ErrorCode) (h : Wired s) :
    Operates s ((unregisterDroppedLoop list outErr).run s).state := by
  induction list generalizing s outErr with
  | nil => exact h.stays
  | cons a list ih =>
    simp only [unregisterDroppedLoop, Logged.run_bind, Cmrg.run_readXpcommand, Outcome.after_nil]
    cases s.world.memory.xpcommands a with
    | none => exact ih _ h
    | some found =>
      simp only [Logged.run_ite]
      split_ifs
      · have hitem := unregisterDestroyItem_operates h a
        have hrest := ih (if ((unregisterDestroyItem a).run s).val ≠ .none then
            .unspecific else outErr)
          hitem.wired
        exact ⟨hrest.wired, hitem.evolves.trans hrest.evolves⟩
      · exact ih _ h

theorem unregisterDroppedXpcommands_operates (h : Wired s) :
    Operates s (unregisterDroppedXpcommands.run s).state := by
  rcases Cmrg.lockedRegistry_cases (fun _ => ErrorCode.mutexFailed) (do
      let commands ← lift (readMemory CmrgMemory.commands)
      unregisterDroppedLoop commands .none : X ErrorCode) s with
    ⟨err, -, -, hsame⟩ | ⟨s₁, hsame, -, hend⟩
  · exact h.same hsame.same
  · exact h.between hsame.same (fun h₁ => unregisterDroppedLoop_operates _ _ h₁) hend.same

/-- A proxy whose drop reports no error is dropped, if it is still there. -/
theorem dropXpcommand_operates (h : Wired s) (proxy : Option ℕ) :
    let r := (lift (dropXpcommand proxy)).run s
    Operates s r.state ∧ (r.val = .none → ∀ a, proxy = some a →
      ∃ found, r.state.world.memory.xpcommands a = some found ∧ found.state = .dropped) := by
  intro r
  cases proxy with
  | none => exact ⟨h.stays, fun _ _ ha => by cases ha⟩
  | some a =>
    rcases Cmrg.lockedXpcommand_cases a (fun err => err) (fun found =>
        if found.state = .registered ∨ found.state = .created then do
          modifyXpcommand a fun found => { found with state := .dropped }
          pure .none
        else pure .unspecific) s.world with
      ⟨err, herr, hval, hmemory⟩ | ⟨w₁, found, hw₁, hp, hval, hmemory⟩
    · exact ⟨h.same ⟨hmemory, rfl⟩, fun hnone => absurd (hval.symm.trans hnone) herr⟩
    by_cases hstate : found.state = .registered ∨ found.state = .created
    · have hfinal : r.state.world.memory = ((modifyXpcommand a fun found =>
          { found with state := .dropped }).run s.world).state.memory := by
        refine hmemory.trans ?_
        simp [modifyXpcommand, updateMemory, hstate, hw₁]
      have hmodified := modify_operates (f := fun found => { found with state := .dropped }) h hp
        (fun handler hserves => ⟨.inr rfl, hserves.2⟩) ⟨rfl, rfl, fun _ => rfl⟩
      have hend : Operates _ r.state := hmodified.wired.same ⟨hfinal, rfl⟩
      refine ⟨⟨hend.wired, hmodified.evolves.trans hend.evolves⟩, fun _ b hb => ?_⟩
      cases hb
      refine ⟨{ found with state := .dropped }, ?_, rfl⟩
      rw [hfinal, Cmrg.modifyXpcommand_memory hp]
      exact Function.update_self _ _ _
    · simp only [hstate, ↓reduceIte, Logged.run_pure] at hval hmemory
      refine ⟨h.same ⟨hmemory.trans hw₁, rfl⟩, fun hnone => ?_⟩
      exact absurd (hval.symm.trans hnone) (by simp)

theorem createXpcommand_wired (h : Wired s) (name description : List UInt8) (phase : XpcommandPhase)
    (propagate : XpcommandPropagation) (callbackRef : ℕ) :
    let r := (lift (createXpcommand name description phase propagate callbackRef)).run s
    (r.val = none ∧ Operates s r.state) ∨
    (r.val = some s.world.memory.next ∧ Wired r.state ∧
      r.state.world.memory.next = s.world.memory.next + 1 ∧
      r.state.world.memory.xpcommands = Function.update s.world.memory.xpcommands
        s.world.memory.next
        (some ⟨.created, name, description, phase, propagate, none, some callbackRef⟩)) := by
  intro r
  have hlists : Cmrg.Lists ⟨.created, name, description, phase, propagate, none,
      some callbackRef⟩ _ :=
    Cmrg.createXpcommand_lists name description phase propagate
  obtain ⟨hval, hmemory⟩ | ⟨hval, hmemory⟩ := hlists s.world
  · exact .inl ⟨hval, h.same ⟨hmemory, rfl⟩⟩
  have hx := congrArg CmrgMemory.xpcommands hmemory
  have hnext := congrArg CmrgMemory.next hmemory
  refine .inr ⟨hval, ⟨fun handler hhandler => ?_, h.once, fun b hb => ?_⟩, hnext, hx⟩
  · obtain ⟨found, hp, hserves⟩ := h.handled handler hhandler
    refine ⟨found, ?_, hserves⟩
    exact (congrFun hx handler.proxy).trans
      ((Function.update_of_ne (Nat.ne_of_lt (h.lt_next hp)) _ _).trans hp)
  · have hb : s.world.memory.next + 1 ≤ b := Nat.le_trans (Nat.le_of_eq hnext.symm) hb
    exact (congrFun hx b).trans ((Function.update_of_ne (Nat.ne_of_gt hb) _ _).trans
      (h.fresh b (Nat.le_of_succ_le hb)))

end Registry

/-! ### Runs -/

/-- The registry; `created` is what `create_xpcommand` was given for a proxy, and `dropped` are the
proxies for which `drop_xpcommand` has returned `ERROR_NONE`. -/
structure RegistryRun where
  xp : XpWorld
  created : ℕ → Option (XpcommandPropagation × ℕ)
  dropped : List ℕ

/-- What can happen to the registry. -/
inductive RegistryAct where
  | create (name description : List UInt8) (phase : XpcommandPhase)
      (propagate : XpcommandPropagation) (callbackRef : ℕ)
  | register (findCommand createCommand proxy : Option ℕ)
  | drop (proxy : Option ℕ)
  | unregisterDestroy (proxy : Option ℕ)
  | unregisterDropped
  | invoke (handler : CommandHandler) (phase : XplmCommandPhase)
  | elapse (world : World CmrgMemory)

open X Xpcommands in
/-- The steps.  X-Plane calls the handlers that it knows; between the steps everything but the
registry may change. -/
inductive RegistryStep : RegistryRun → RegistryAct → RegistryRun → Prop
  | create {s : RegistryRun} {name description : List UInt8} {phase : XpcommandPhase}
      {propagate : XpcommandPropagation} {callbackRef : ℕ} :
      RegistryStep s (.create name description phase propagate callbackRef)
        { s with
          xp := ((lift (createXpcommand name description phase propagate callbackRef)).run
            s.xp).state
          created :=
            match ((lift (createXpcommand name description phase propagate callbackRef)).run
              s.xp).val with
            | none => s.created
            | some proxy => Function.update s.created proxy (some (propagate, callbackRef)) }
  | register {s : RegistryRun} {findCommand createCommand proxy : Option ℕ} :
      RegistryStep s (.register findCommand createCommand proxy)
        { s with xp := ((registerXpcommand findCommand createCommand proxy).run s.xp).state }
  | drop {s : RegistryRun} {proxy : Option ℕ} :
      RegistryStep s (.drop proxy)
        { s with
          xp := ((lift (dropXpcommand proxy)).run s.xp).state
          dropped := if ((lift (dropXpcommand proxy)).run s.xp).val = .none
            then proxy.toList ++ s.dropped else s.dropped }
  | unregisterDestroy {s : RegistryRun} {proxy : Option ℕ} :
      RegistryStep s (.unregisterDestroy proxy)
        { s with xp := ((unregisterDestroyXpcommand proxy).run s.xp).state }
  | unregisterDropped {s : RegistryRun} :
      RegistryStep s .unregisterDropped
        { s with xp := (unregisterDroppedXpcommands.run s.xp).state }
  | invoke {s : RegistryRun} {handler : CommandHandler} {phase : XplmCommandPhase}
      (h : handler ∈ s.xp.handlers) :
      RegistryStep s (.invoke handler phase)
        { s with xp := ((lift (Registry.invoke Cmrg.handleEvent handler phase)).run s.xp).state }
  | elapse {s : RegistryRun} {world : World CmrgMemory} (h : Cmrg.Tame s.xp.world world) :
      RegistryStep s (.elapse world) { s with xp := { s.xp with world := world } }

/-- All runs, starting with an empty registry. -/
def registrySystem : System RegistryRun RegistryAct where
  init s := s.xp.world.memory = .empty ∧ s.xp.handlers = [] ∧ s.created = (fun _ => none) ∧
  s.dropped = []
  next := RegistryStep

namespace Registry

open Session X Xpcommands
open Cmrg (Serving Tame)

/-- What is known of the proxies from the calls so far. -/
structure Recorded (s : RegistryRun) : Prop where
  wired : Wired s.xp
  created : ∀ a found, s.xp.world.memory.xpcommands a = some found →
    ∃ ref, s.created a = some (found.propagate, ref) ∧ found.callback = some ref
  dropped : ∀ a ∈ s.dropped, a < s.xp.world.memory.next ∧
    ∀ found, s.xp.world.memory.xpcommands a = some found → found.state = .dropped

theorem Recorded.operates {s : RegistryRun} {xp : XpWorld} (h : Recorded s)
    (hop : Operates s.xp xp) :
    Recorded { s with xp := xp } := by
  refine ⟨hop.wired, fun a found' hp' => ?_, fun a ha => ⟨?_, fun found' hp' => ?_⟩⟩
  · obtain ⟨found, hp, hpropagate, hcallback, -⟩ := hop.evolves.preserved a found' hp'
    obtain ⟨ref, hcreated, href⟩ := h.created a found hp
    exact ⟨ref, by rw [hpropagate]; exact hcreated, hcallback.trans href⟩
  · exact Nat.lt_of_lt_of_le (h.dropped a ha).1 hop.evolves.next
  · obtain ⟨found, hp, -, -, hdropped⟩ := hop.evolves.preserved a found' hp'
    exact hdropped ((h.dropped a ha).2 found hp)

theorem Recorded.step {s s' : RegistryRun} {act : RegistryAct} (h : Recorded s)
    (hn : RegistryStep s act s') : Recorded s' := by
  cases hn with
  | @create name description phase propagate callbackRef =>
    obtain ⟨hval, hop⟩ | ⟨hval, hwired, hnext, hx⟩ :=
      createXpcommand_wired h.wired name description phase propagate callbackRef
    · rw [hval]
      exact h.operates hop
    · rw [hval]
      refine ⟨hwired, fun a found hp => ?_, fun a ha => ⟨?_, fun found hp => ?_⟩⟩
      · dsimp only at hp ⊢
        rw [hx] at hp
        by_cases hnew : a = s.xp.world.memory.next
        · subst hnew
          rw [Function.update_self, Option.some.injEq] at hp
          subst hp
          exact ⟨callbackRef, Function.update_self .., rfl⟩
        · rw [Function.update_of_ne hnew] at hp ⊢
          exact h.created a found hp
      · dsimp only
        rw [hnext]
        exact Nat.lt_succ_of_lt (h.dropped a ha).1
      · dsimp only at hp
        rw [hx, Function.update_of_ne (Nat.ne_of_lt (h.dropped a ha).1)] at hp
        exact (h.dropped a ha).2 found hp
  | register => exact h.operates (registerXpcommand_operates h.wired _ _ _)
  | @drop proxy =>
    obtain ⟨hop, hdropped⟩ := dropXpcommand_operates h.wired proxy
    have hsame := h.operates hop
    refine ⟨hsame.wired, hsame.created, fun a ha => ?_⟩
    dsimp only at ha
    split_ifs at ha with hval
    · rcases List.mem_append.1 ha with ha | ha
      · obtain ⟨found, hp, hstate⟩ := hdropped hval a (Option.mem_toList.1 ha)
        refine ⟨hop.wired.lt_next hp, fun found' hp' => ?_⟩
        obtain rfl : found = found' := Option.some.inj (hp.symm.trans hp')
        exact hstate
      · exact hsame.dropped a ha
    · exact hsame.dropped a ha
  | unregisterDestroy => exact h.operates (unregisterDestroyXpcommand_operates h.wired _)
  | unregisterDropped => exact h.operates (unregisterDroppedXpcommands_operates h.wired)
  | invoke => exact h.operates (h.wired.tame (Cmrg.tame_xpCommandHandler _ _ _ s.xp.world) rfl)
  | elapse htame => exact h.operates (h.wired.tame htame rfl)

theorem recorded_of_reachable {s : RegistryRun} (h : registrySystem.Reachable s) : Recorded s := by
  refine h.invariant ?_ fun s act s' _ hs hn => hs.step hn
  rintro s ⟨hmemory, hhandlers, -, hdropped⟩
  refine ⟨⟨?_, ?_, ?_⟩, ?_, ?_⟩
  · rw [hhandlers]
    exact fun _ hmem => absurd hmem List.not_mem_nil
  · rw [hhandlers]
    exact List.nodup_nil
  · rw [hmemory]
    exact fun _ _ => rfl
  · rw [hmemory]
    exact fun _ _ hp => by cases hp
  · rw [hdropped]
    exact fun _ ha => absurd ha List.not_mem_nil

/-! ### Invocations -/

variable {w : World CmrgMemory} {handler : CommandHandler} {found : Xpcommand}

/-- What an invocation does once it has the lock. -/
theorem run_invoke (callback : ℕ → XplmCommandPhase → M CmrgMemory Unit) (phase : XplmCommandPhase)
    (hp : w.memory.xpcommands handler.proxy = some found) (hserving : Serving handler found)
    (hlock : ¬ w.refuses .registry) {ref : ℕ} (hcallback : found.callback = some ref) :
    (invoke callback handler phase).run w =
      if found.state = .registered then
        ⟨found.propagate, ((callback ref phase).run (w.holding .registry)).state.apply
          (.unlock .registry),
          .lock .registry :: (((callback ref phase).run (w.holding .registry)).ops ++
            [.unlock .registry])⟩
      else ⟨.continues, (w.holding .registry).apply (.unlock .registry),
        [.lock .registry, .unlock .registry]⟩ := by
  have hdestroyed : found.state ≠ .destroyed := by
    rcases hserving.1 with hstate | hstate <;> simp [hstate]
  have hagain : (w.holding .registry).memory.xpcommands handler.proxy = some found := hp
  by_cases hstate : found.state = .registered
  · simp [invoke, xpCommandHandler, lockedXpcommand, readMemory, hp, locked_granted hlock,
      hagain, hstate, hserving.2.1, hcallback]
  · simp [invoke, xpCommandHandler, lockedXpcommand, readMemory, hp, hdestroyed,
      locked_granted hlock, hagain, hstate]

/-- An invocation is served as the proxy was created: the handler returns its propagation, and calls
its callback exactly if the proxy is registered, hence not after it was dropped. -/
def Served (s : RegistryRun) (handler : CommandHandler) (phase : XplmCommandPhase) : Prop :=
  ∃ propagate ref found, s.created handler.proxy = some (propagate, ref) ∧
    s.xp.world.memory.xpcommands handler.proxy = some found ∧
    (found.state = .registered ∨ found.state = .dropped) ∧
    (∀ callback, ((invoke callback handler phase).run s.xp.world).val = propagate) ∧
    (found.state = .registered → Calls s.xp.world handler phase ref) ∧
    (found.state ≠ .registered → CallsNothing s.xp.world handler phase) ∧
    (handler.proxy ∈ s.dropped → CallsNothing s.xp.world handler phase)

/-- The proxy is not dropped, or lets X-Plane go on with the event. -/
def Continues (s : RegistryRun) (handler : CommandHandler) : Prop :=
  ∀ found propagate ref, s.xp.world.memory.xpcommands handler.proxy = some found →
    found.state = .dropped → s.created handler.proxy = some (propagate, ref) →
    propagate = .continues

end Registry

open Registry in
/-- **X-Plane is told to stop or to go on as the proxy was created.**  In every state of every run,
and for every handler that X-Plane has: if the lock can be taken, an invocation returns the
configured propagation and calls the callback exactly if the proxy is registered, provided that the
proxy is not dropped or propagates; otherwise it does not. -/
theorem invocation_served_iff {s : RegistryRun} (h : registrySystem.Reachable s)
    {handler : CommandHandler} (hhandler : handler ∈ s.xp.handlers) (phase : XplmCommandPhase)
    (hlock : ¬ s.xp.world.refuses .registry) :
    Served s handler phase ↔ Continues s handler := by
  have hrecorded := recorded_of_reachable h
  obtain ⟨found, hp, hserving⟩ := hrecorded.wired.handled handler hhandler
  obtain ⟨ref, hcreated, hcallback⟩ := hrecorded.created _ found hp
  have hrun := fun callback => run_invoke callback phase hp hserving hlock hcallback
  constructor
  · rintro ⟨propagate, ref', found', hcreated', hp', -, hval, -⟩
      found'' propagate' ref'' hp'' hdropped hcreated''
    obtain rfl : found = found'' := Option.some.inj (hp.symm.trans hp'')
    rw [hcreated', Option.some.injEq, Prod.mk.injEq] at hcreated''
    rw [← hcreated''.1, ← hval fun _ _ => pure (), hrun, if_neg (by simp [hdropped])]
  · intro hcontinues
    refine ⟨found.propagate, ref, found, hcreated, hp, hserving.1, fun callback => ?_,
      fun hstate => ?_, fun hstate => ?_, fun hdropped => ?_⟩
    · rw [hrun]
      split_ifs with hstate
      · rfl
      · have hdropped := hserving.1.resolve_left hstate
        exact (hcontinues found found.propagate ref hp hdropped hcreated).symm
    · intro callback
      rw [hrun, if_pos hstate]
      exact ⟨rfl, rfl⟩
    · intro callback callback'
      rw [hrun, hrun, if_neg hstate, if_neg hstate]
    · have hstate : found.state ≠ .registered := by
        rw [(hrecorded.dropped _ hdropped).2 found hp]
        decide
      intro callback callback'
      rw [hrun, hrun, if_neg hstate, if_neg hstate]

/-- An empty registry, while nothing fails. -/
def emptyRegistry : RegistryRun where
  xp := ⟨World.idle .empty, []⟩
  created _ := none
  dropped := []

/-- A proxy that suppresses the event is created and registered. -/
theorem stopping_reachable : ∃ s, registrySystem.Reachable s ∧ s.xp.handlers = [⟨7, .before, 0⟩] ∧
    s.xp.world.memory.xpcommands 0 =
      some ⟨.registered, bytes "x", bytes "", .before, .stop, some 7, some 5⟩ ∧
    s.created 0 = some (.stop, 5) ∧ s.dropped = [] ∧ ¬ s.xp.world.refuses .registry := by
  have h₀ : registrySystem.Reachable emptyRegistry := .start ⟨rfl, rfl, rfl, rfl⟩
  have h₁ := h₀.step (RegistryAct.create (bytes "x") (bytes "") .before .stop 5) .create
  have h₂ := h₁.step (RegistryAct.register (some 7) none (some 0)) .register
  exact ⟨_, h₂, by decide +kernel, by decide +kernel, by decide +kernel, by decide +kernel,
    by decide +kernel⟩

/-- A registered proxy suppresses the event. -/
theorem invocation_served_iff_registered : ∃ s, ∃ handler ∈ s.xp.handlers,
    registrySystem.Reachable s ∧ Registry.Served s handler .begins := by
  obtain ⟨s, hreachable, hhandlers, hp, -, -, hlock⟩ := stopping_reachable
  have hmem : (⟨7, .before, 0⟩ : CommandHandler) ∈ s.xp.handlers := by
    rw [hhandlers]
    exact List.mem_singleton_self _
  refine ⟨s, _, hmem, hreachable, (invocation_served_iff hreachable hmem .begins hlock).2 ?_⟩
  intro found propagate ref hfound hdropped
  obtain rfl := Option.some.inj (hp.symm.trans hfound)
  cases hdropped

/-- A proxy that suppresses the event is dropped between the beginning and the end of a press:
X-Plane goes on with the end of it. -/
theorem not_invocation_served : ∃ s, ∃ handler ∈ s.xp.handlers, registrySystem.Reachable s ∧
    ¬ s.xp.world.refuses .registry ∧ s.created handler.proxy = some (.stop, 5) ∧
    (∃ found, s.xp.world.memory.xpcommands handler.proxy = some found ∧ found.state = .dropped) ∧
    ∀ callback, ((Registry.invoke callback handler .ends).run s.xp.world).val = .continues := by
  have h₀ : registrySystem.Reachable emptyRegistry := .start ⟨rfl, rfl, rfl, rfl⟩
  have h₁ := h₀.step (RegistryAct.create (bytes "x") (bytes "") .before .stop 5) .create
  have h₂ := h₁.step (RegistryAct.register (some 7) none (some 0)) .register
  have h₃ := h₂.step (RegistryAct.invoke ⟨7, .before, 0⟩ .begins) (.invoke (by decide +kernel))
  have h₄ := h₃.step (RegistryAct.drop (some 0)) .drop
  let dropped : Xpcommand := ⟨.dropped, bytes "x", bytes "", .before, .stop, some 7, some 5⟩
  refine ⟨_, ⟨7, .before, 0⟩, by decide +kernel, h₄, by decide +kernel, by decide +kernel,
    ⟨dropped, by decide +kernel, rfl⟩, fun callback => ?_⟩
  rw [Registry.run_invoke callback .ends (by decide +kernel : _ = some dropped) ⟨.inr rfl, rfl, rfl⟩
    (by decide +kernel) rfl]
  rfl

end XprcServer
