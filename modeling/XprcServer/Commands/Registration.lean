import XprcServer.Server.Tracking

/-!
# Registering X-Plane commands

The functions of `xpcommands.c` and `command_cmrg.c` that call X-Plane: a proxy is registered in the
first flight loop of its CMRG command, and deregistered by the maintenance of the plugin after it
was dropped.

X-Plane keeps a list of the command handlers it calls.  Code that changes this list is a program of
`X`; code that does not is lifted from `M`.
-/

namespace XprcServer

open Lib

/-- What `XPLMRegisterCommandHandler` is told besides the handler, which is always the same. -/
structure CommandHandler where
  xpRef : ℕ
  phase : XpcommandPhase
  proxy : ℕ
  deriving DecidableEq, Repr

/-- The world of the session, and the command handlers that X-Plane has. -/
structure XpWorld where
  world : World CmrgMemory
  handlers : List CommandHandler

/-- Code that calls X-Plane. -/
abbrev X := Logged XpWorld (LockOp Lock)

namespace X

variable {α : Type}

/-- Code that does not call X-Plane. -/
def lift (p : M CmrgMemory α) : X α := fun s =>
  ⟨(p.run s.world).val, { s with world := (p.run s.world).state }, (p.run s.world).ops⟩

@[simp] theorem run_lift (p : M CmrgMemory α) (s : XpWorld) :
    (lift p).run s =
      ⟨(p.run s.world).val, { s with world := (p.run s.world).state }, (p.run s.world).ops⟩ := rfl

/-- `XPLMRegisterCommandHandler` -/
def registerCommandHandler (handler : CommandHandler) : X Unit :=
  Logged.update fun s => { s with handlers := s.handlers ++ [handler] }

/-- `XPLMUnregisterCommandHandler` -/
def unregisterCommandHandler (handler : CommandHandler) : X Unit :=
  Logged.update fun s => { s with handlers := s.handlers.erase handler }

/-- Code that runs while it holds the lock of the registry. -/
def lockedRegistry (refused : ErrorCode → α) (body : X α) : X α := do
  let err ← lift (lockFlagged .registry)
  if err = .none then do
    let result ← body
    lift (mtxUnlock .registry)
    pure result
  else pure (refused err)

end X

namespace Xpcommands

open X

/-- The proxy at an address; there is none where memory was freed. -/
def readXpcommand (proxy : ℕ) : X (Option Xpcommand) :=
  lift (readMemory (CmrgMemory.xpcommands · proxy))

/-- The end of `register_xpcommand`: X-Plane has the command `xpRef`. -/
def registerHandler (proxy : ℕ) (found : Xpcommand) (xpRef : ℕ) : X ErrorCode := do
  lift (modifyXpcommand proxy fun found => { found with xpRef := some xpRef })
  registerCommandHandler ⟨xpRef, found.phase, proxy⟩
  lift (modifyXpcommand proxy fun found => { found with state := .registered })
  pure .none

/-- `register_xpcommand`; `findCommand` and `createCommand` are what `XPLMFindCommand` and
`XPLMCreateCommand` return. -/
def registerXpcommand (findCommand createCommand : Option ℕ) (proxy : Option ℕ) : X ErrorCode := do
  match proxy with
  | none => pure .unspecific
  | some proxy =>
    match ← readXpcommand proxy with
    | none => pure .unspecific
    | some found =>
      if found.state = .destroyed then pure .unspecific
      else
        lockedRegistry (fun err => err) do
          match ← readXpcommand proxy with
          | none => pure .unspecific
          | some found =>
            if found.state ≠ .created then pure .unspecific
            else
              match findCommand, createCommand with
              | some xpRef, _ => registerHandler proxy found xpRef
              | none, some xpRef => registerHandler proxy found xpRef
              | none, none => do
                lift (modifyXpcommand proxy fun found => { found with xpRef := none })
                pure .unspecific

/-- The proxy is taken off the list of the registry and freed. -/
def freeXpcommand (proxy : ℕ) : X Unit :=
  lift (updateMemory fun m =>
    { m with
      commands := m.commands.erase proxy
      xpcommands := Function.update m.xpcommands proxy none })

/-- `_unregister_destroy_xpcommand` of a proxy that has an entry in the list -/
def unregisterDestroyItem (proxy : ℕ) : X ErrorCode := do
  match ← readXpcommand proxy with
  | none => pure .unspecific
  | some found =>
    if found.state = .registered ∨ found.state = .dropped then
      match found.xpRef with
      | none => pure .unspecific
      | some xpRef => do
        unregisterCommandHandler ⟨xpRef, found.phase, proxy⟩
        freeXpcommand proxy
        pure .none
    else do
      freeXpcommand proxy
      pure .none

/-- `unregister_destroy_xpcommand` -/
def unregisterDestroyXpcommand (proxy : Option ℕ) : X ErrorCode := do
  match proxy with
  | none => pure .none
  | some proxy =>
    lockedRegistry (fun err => err) do
      let found ← lift (readMemory fun m => decide (proxy ∈ m.commands))
      if found then unregisterDestroyItem proxy else pure .unspecific

/-- The loop of `unregister_dropped_xpcommands`, over the list as it was at the start: an item is
only deleted when the loop has passed it. -/
def unregisterDroppedLoop : List ℕ → ErrorCode → X ErrorCode
  | [], outErr => pure outErr
  | proxy :: rest, outErr => do
    match ← readXpcommand proxy with
    | none => unregisterDroppedLoop rest outErr
    | some found =>
      if found.state = .dropped then do
        let err ← unregisterDestroyItem proxy
        unregisterDroppedLoop rest (if err ≠ .none then .unspecific else outErr)
      else unregisterDroppedLoop rest outErr

/-- `unregister_dropped_xpcommands` -/
def unregisterDroppedXpcommands : X ErrorCode :=
  lockedRegistry (fun _ => .mutexFailed) do
    let commands ← lift (readMemory CmrgMemory.commands)
    unregisterDroppedLoop commands .none

/-- `destroy_xpcommand_registry`, up to the memory that is freed at the end. -/
def destroyXpcommandRegistry : X ErrorCode := do
  if ← lift (mtxLock .registry) then do
    let pending ← lift (destructionPending .registry)
    let commands ← lift (readMemory CmrgMemory.commands)
    lift (mtxUnlock .registry)
    if pending then pure .destructionPending
    else if commands.length ≠ 0 then pure .unspecific
    else do
      -- the registry is locked once more, so that all threads see that it is being destroyed
      if ← lift (mtxLock .registry) then do
        lift (mtxUnlock .registry)
        pure .none
      else pure .none
  else pure .mutexFailed

end Xpcommands

namespace Cmrg

open X Xpcommands

/-- A message on the channel of a command. -/
def sendMessage (call : ChannelCall) (command : CommandCmrg) (text : Option String) : X ErrorCode :=
  lift (call.exec command.channelId currentTimeReference (text.map bytes))

/-- The end of `cmrg_initialize` if the channel cannot be confirmed. -/
def abandon (ref : ℕ) (command : CommandCmrg) : X Unit := do
  let err ← unregisterDestroyXpcommand command.xpcmd
  if err = .none then
    lift (modifyCommand ref fun command => { command with xpcmd := none })
  else do
    let _ ← sendMessage .error command
      (some "channel confirmation and command deregistration failed")
    pure ()
  let _ ← sendMessage .error command (some "channel confirmation failed")
  lift (markFailed ref)

/-- `cmrg_initialize` -/
def initializeCommand (ref : ℕ) (command : CommandCmrg) (findCommand createCommand : Option ℕ) :
    X Unit := do
  let err ← registerXpcommand findCommand createCommand command.xpcmd
  if err ≠ .none then do
    let _ ← sendMessage .error command (some "failed to register command")
    lift (markFailed ref)
  else do
    let err ← sendMessage .confirm command none
    if err ≠ .none then abandon ref command
    else lift (modifyCommand ref fun command => { command with initialized := true })

/-- `cmrg_process` before the flight model -/
def processFlightloop (ref : ℕ) (findCommand createCommand : Option ℕ) : X Unit := do
  match ← lift (readMemory (CmrgMemory.cmrg · ref)) with
  | none => pure ()
  | some command =>
    if !command.initialized && !command.failed then
      initializeCommand ref command findCommand createCommand
    else pure ()

/-- `cmrg_process` in post-processing; the result is that of `cmrg_terminate`, if it is called. -/
def processPost (ref : ℕ) : M CmrgMemory (Option ErrorCode) := do
  match ← readMemory (CmrgMemory.cmrg · ref) with
  | none => pure none
  | some command =>
    if command.failed then do
      let _ ← Session.errorChannel command.channelId currentTimeReference none
      let err ← terminate (some ref)
      pure (some err)
    else pure none

end Cmrg

end XprcServer
