import XprcServer.Server.HandleRequest

/-!
# The registry of X-Plane commands

`xpcommands.c`: proxies of X-Plane commands, owned by CMRG commands and called by X-Plane through
`xp_command_handler`.  The registry has one lock, which is held for every access to a proxy and also
while the handler calls back into the owner.

A proxy is named by its address, and so is the command that owns it.  The memory holds the proxies
owned by commands of one session.
-/

namespace XprcServer

open Lib

/-- `xpcommand_state_t` -/
inductive XpcommandState where
  | created
  | registered
  | dropped
  | destroyed
  deriving DecidableEq, Repr

/-- `xpcommand_phase_t` -/
inductive XpcommandPhase where
  | after
  | before
  deriving DecidableEq, Repr

/-- `xpcommand_propagation_t` -/
inductive XpcommandPropagation where
  | stop
  | continues
  deriving DecidableEq, Repr

/-- `XPLMCommandPhase`; X-Plane may come to know more phases than the plugin does. -/
inductive XplmCommandPhase where
  | begins
  | continues
  | ends
  | other
  deriving DecidableEq, Repr

/-- `xpcommand_t`.  The only callback is `cmrg_handle_event`; `callback` is its reference. -/
structure Xpcommand where
  state : XpcommandState
  name : List UInt8
  description : List UInt8
  phase : XpcommandPhase
  propagate : XpcommandPropagation
  xpRef : Option ℕ
  callback : Option ℕ
  deriving DecidableEq, Repr

/-- `cmrg_monitor_t`, without its invalid value. -/
structure CmrgMonitor where
  trigger : Bool
  holdRelease : Bool
  deriving DecidableEq, Repr

/-- `command_cmrg_t`; its session is the one whose world it is in. -/
structure CommandCmrg where
  channelId : ChannelId
  task : Option ℕ
  monitor : CmrgMonitor
  xpcmd : Option ℕ
  initialized : Bool
  failed : Bool
  deriving DecidableEq, Repr

/-- The memory of CMRG commands: proxies and commands by address, the list of the registry, the
queue of tasks that run before the flight model, and the next free address. -/
structure CmrgMemory where
  xpcommands : ℕ → Option Xpcommand
  commands : List ℕ
  cmrg : ℕ → Option CommandCmrg
  queue : List ℕ
  next : ℕ

namespace Xpcommands

open Session

/-- Change the memory. -/
def updateMemory (f : CmrgMemory → CmrgMemory) : M CmrgMemory Unit :=
  Logged.update fun w => { w with memory := f w.memory }

/-- Read the memory. -/
def readMemory {α : Type} (f : CmrgMemory → α) : M CmrgMemory α := Logged.read fun w => f w.memory

/-- The address of a new object. -/
def newAddress : M CmrgMemory ℕ := do
  let address ← readMemory CmrgMemory.next
  updateMemory fun m => { m with next := m.next + 1 }
  pure address

/-- Change a proxy in place. -/
def modifyXpcommand (proxy : ℕ) (f : Xpcommand → Xpcommand) : M CmrgMemory Unit :=
  updateMemory fun m =>
    { m with xpcommands := Function.update m.xpcommands proxy ((m.xpcommands proxy).map f) }

/-- `create_xpcommand`.  The proxy, the copies of its two texts and the list entry are allocated. -/
def createXpcommand (name description : List UInt8) (phase : XpcommandPhase)
    (propagate : XpcommandPropagation) (callbackRef : ℕ) : M CmrgMemory (Option ℕ) := do
  if ← Session.allocate then
    if ← Session.allocate then
      if ← Session.allocate then
        locked .registry (fun _ => none) do
          if ← Session.allocate then do
            let proxy ← newAddress
            updateMemory fun m =>
              { m with
                xpcommands := Function.update m.xpcommands proxy
                  (some ⟨.created, name, description, phase, propagate, none, some callbackRef⟩)
                commands := m.commands ++ [proxy] }
            pure (some proxy)
          else pure none
      else pure none
    else pure none
  else pure none

/-- Code between `lock_xpcommand` and `unlock_xpcommand`; the state of the proxy is checked before
the registry is locked, and the proxy read again afterwards. -/
def lockedXpcommand {α : Type} (proxy : ℕ) (refused : ErrorCode → α)
    (body : Xpcommand → M CmrgMemory α) : M CmrgMemory α := do
  match ← readMemory (CmrgMemory.xpcommands · proxy) with
  | none => pure (refused .unspecific)
  | some found =>
    if found.state = .destroyed then pure (refused .unspecific)
    else
      locked .registry refused do
        match ← readMemory (CmrgMemory.xpcommands · proxy) with
        | none => pure (refused .unspecific)
        | some found => body found

/-- `drop_xpcommand` -/
def dropXpcommand (proxy : Option ℕ) : M CmrgMemory ErrorCode :=
  match proxy with
  | none => pure .none
  | some proxy =>
    lockedXpcommand proxy (fun err => err) fun found =>
      if found.state = .registered ∨ found.state = .created then do
        modifyXpcommand proxy fun found => { found with state := .dropped }
        pure .none
      else pure .unspecific

/-- `xp_command_handler`, with the callback of the proxies as a parameter. -/
def xpCommandHandler (callback : ℕ → XplmCommandPhase → M CmrgMemory Unit) (inCommand : ℕ)
    (inPhase : XplmCommandPhase) (inRefcon : Option ℕ) : M CmrgMemory XpcommandPropagation :=
  match inRefcon with
  | none => pure .continues
  | some proxy =>
    lockedXpcommand proxy (fun _ => .continues) fun found =>
      if found.state ≠ .registered then pure .continues
      else if found.xpRef ≠ some inCommand then pure .continues
      else
        match found.callback with
        | none => pure .continues
        | some ref => do
          callback ref inPhase
          pure found.propagate

/-! ### Lock discipline -/

open Logged (Keeps)

variable {α : Type} {id : ChannelId}

theorem updateMemory_calm (f : CmrgMemory → CmrgMemory) : Keeps World.Calm (updateMemory f) :=
  .update fun _ => ⟨rfl, fun _ hid => hid⟩

theorem newAddress_calm : Keeps World.Calm newAddress :=
  .bind (.read _) fun _ => .bind (updateMemory_calm _) fun _ => .pure _

theorem ask_calm {μ : Type} (f : Environment → ℕ → α) : Keeps World.Calm (ask f : M μ α) :=
  (ask_keeps f).mono fun _ _ => World.Frame.calm

theorem createXpcommand_tidy (name description : List UInt8) (phase : XpcommandPhase)
    (propagate : XpcommandPropagation) (callbackRef : ℕ) :
    TidyOn id (createXpcommand name description phase propagate callbackRef) := by
  refine .bind (.of_keeps (ask_calm _)) fun _ => .ite ?_ (.pure _)
  refine .bind (.of_keeps (ask_calm _)) fun _ => .ite ?_ (.pure _)
  refine .bind (.of_keeps (ask_calm _)) fun _ => .ite (.locked ?_) (.pure _)
  refine .bind (ask_calm _) fun _ => .ite ?_ (.pure _)
  exact .bind newAddress_calm fun _ => .bind (updateMemory_calm _) fun _ => .pure _

theorem lockedXpcommand_tidy {proxy : ℕ} {refused : ErrorCode → α}
    {body : Xpcommand → M CmrgMemory α} (hbody : ∀ found, Keeps World.Calm (body found)) :
    TidyOn id (lockedXpcommand proxy refused body) := by
  refine .bind (.of_keeps (.read _)) fun found => ?_
  cases found with
  | none => exact .pure _
  | some found =>
    refine .ite (.pure _) (.locked (.bind (.read _) fun found => ?_))
    cases found with
    | none => exact .pure _
    | some found => exact hbody found

theorem dropXpcommand_tidy (proxy : Option ℕ) : TidyOn id (dropXpcommand proxy) := by
  cases proxy with
  | none => exact .pure _
  | some proxy =>
    unfold dropXpcommand
    refine lockedXpcommand_tidy ?_
    intro found
    refine .ite ?_ (.pure _)
    exact .bind (updateMemory_calm _) fun _ => .pure _

end Xpcommands

end XprcServer
