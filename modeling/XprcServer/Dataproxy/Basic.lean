import XprcServer.Hashmap
import Mathlib.Data.Multiset.AddSub
import Mathlib.Data.Multiset.Filter

/-!
# Data proxies

`dataproxy.c`: a registry of proxies for datarefs that the plugin hosts in X-Plane.  A proxy is
reserved by a session, registered with X-Plane, unregistered and released again; a registered one
can also be dropped, and is then unregistered by a later maintenance call.

Proxies are never freed while their registry exists, so a pointer to a proxy is its index in the
list of all proxies ever created.  Every function works under the lock of the registry.  An
attempt to lock it may fail (`Outcomes.lock`), but not while the thread holds it already: the mutex
is recursive, and only a thread that holds it flags the registry for destruction.
-/

namespace XprcServer

open Lib

/-- `dataproxy_state_t` -/
inductive DataproxyState where
  | inactive
  | reserved
  | registered
  | dropped
  deriving DecidableEq, Repr

/-- `dataproxy_operations_t`: the callbacks, of which any may be NULL -/
structure DataproxyOperations where
  simpleGet : Option ℕ
  simpleSet : Option ℕ
  arrayGet : Option ℕ
  arrayLength : Option ℕ
  arrayUpdate : Option ℕ
  deriving DecidableEq, Repr

namespace DataproxyOperations

/-- Zeroed memory -/
def cleared : DataproxyOperations := ⟨none, none, none, none, none⟩

/-- `has_all_operations` -/
def hasAllOperations (operations : DataproxyOperations) : Bool :=
  operations.simpleGet.isSome && operations.simpleSet.isSome && operations.arrayGet.isSome &&
    operations.arrayLength.isSome && operations.arrayUpdate.isSome

end DataproxyOperations

/-- `DATAPROXY_PERMISSION_SESSION` -/
def permissionSession : UInt8 := 0

/-- `DATAPROXY_PERMISSION_XPRC` -/
def permissionXprc : UInt8 := 1

/-- `DATAPROXY_PERMISSION_ALL` -/
def permissionAll : UInt8 := 2

/-- `xplmType_Unknown` -/
def xplmTypeUnknown : BitVec 32 := 0

/-- All bits of `xplmType_Int` to `xplmType_Data` -/
def maskAllTypes : BitVec 32 := 63

/-- `is_valid_combined_type` -/
def isValidCombinedType (types : BitVec 32) : Bool := types &&& ~~~maskAllTypes = 0

/-- `is_valid_write_permission` -/
def isValidWritePermission (writePermission : UInt8) : Bool :=
  writePermission = permissionSession || writePermission = permissionXprc ||
    writePermission = permissionAll

/-- `dataproxy_t` -/
structure Dataproxy where
  state : DataproxyState
  datarefName : List UInt8
  xpDataref : Option ℕ
  types : BitVec 32
  writePermission : UInt8
  ownerSession : Option ℕ
  operations : DataproxyOperations
  operationsRef : Option ℕ
  deriving DecidableEq, Repr

namespace Dataproxy

/-- `clear_dataproxy`; the state and the name stay. -/
def clear (proxy : Dataproxy) : Dataproxy :=
  { proxy with
    xpDataref := none
    types := xplmTypeUnknown
    writePermission := permissionSession
    ownerSession := none
    operationsRef := none
    operations := .cleared }

/-- `create_dataproxy` -/
def create (datarefName : List UInt8) : Dataproxy where
  state := .inactive
  datarefName := datarefName
  xpDataref := none
  types := xplmTypeUnknown
  writePermission := permissionSession
  ownerSession := none
  operations := .cleared
  operationsRef := none

/-- X-Plane knows the dataref of the proxy. -/
def atXPlane (proxy : Dataproxy) : Bool := proxy.state = .registered || proxy.state = .dropped

/-- The dataref that X-Plane knows for the proxy. -/
def accessor (proxy : Dataproxy) : Option ℕ := if proxy.atXPlane then proxy.xpDataref else none

end Dataproxy

/-- `dataproxy_registry_t` with all its proxies, and the accessors X-Plane has registered. -/
structure DataproxyRegistry where
  byDatarefName : Hashmap ℕ
  proxies : List Dataproxy
  accessors : Multiset ℕ

/-- What an operation finds outside: whether it gets the lock of the registry, which allocations
succeed, and what `XPLMRegisterDataAccessor` returns. -/
structure Outcomes where
  lock : ErrorCode
  alloc : ℕ → Bool
  registerDataAccessor : Option ℕ

/-- The registry is locked already. -/
def Outcomes.held (o : Outcomes) : Outcomes := { o with lock := .none }

namespace DataproxyRegistry

/-- `create_dataproxy_registry` -/
def create : DataproxyRegistry := ⟨.empty, [], 0⟩

variable (o : Outcomes) (r : DataproxyRegistry)

/-- The proxy at `a` is changed. -/
def set (a : ℕ) (proxy : Dataproxy) : DataproxyRegistry :=
  { r with proxies := r.proxies.set a proxy }

/-- `XPLMUnregisterDataAccessor` -/
def unregisterDataAccessor (xpDataref : Option ℕ) : DataproxyRegistry :=
  match xpDataref with
  | none => r
  | some ref => { r with accessors := r.accessors.erase ref }

/-- The frame of the functions on one proxy: `body` runs under the lock. -/
def onProxy (proxy : Option ℕ) (body : ℕ → Dataproxy → ErrorCode × DataproxyRegistry) :
    ErrorCode × DataproxyRegistry :=
  match proxy with
  | none => (.unspecific, r)
  | some a =>
    match r.proxies[a]? with
    | none => (.unspecific, r)
    | some proxy => if o.lock ≠ .none then (o.lock, r) else body a proxy

/-- `release_dataproxy` -/
def releaseDataproxy (proxy : Option ℕ) : ErrorCode × DataproxyRegistry :=
  r.onProxy o proxy fun a proxy =>
    if proxy.state ≠ .reserved then (.dataproxyInvalidState, r)
    else (.none, r.set a ({ proxy with state := .inactive }).clear)

/-- `register_dataproxy` -/
def registerDataproxy (proxy : Option ℕ) : ErrorCode × DataproxyRegistry :=
  r.onProxy o proxy fun a proxy =>
    if proxy.state ≠ .reserved then (.dataproxyInvalidState, r)
    else
      match o.registerDataAccessor with
      | none => (.dataproxyRegistrationFailed, r.set a { proxy with xpDataref := none })
      | some ref =>
        (.none, { r.set a { proxy with xpDataref := some ref, state := .registered } with
          accessors := ref ::ₘ r.accessors })

/-- `unregister_dataproxy` -/
def unregisterDataproxy (proxy : Option ℕ) : ErrorCode × DataproxyRegistry :=
  r.onProxy o proxy fun a proxy =>
    match proxy.state with
    | .registered =>
      (.none, (r.unregisterDataAccessor proxy.xpDataref).set a
        { proxy with state := .reserved, xpDataref := none })
    | .dropped =>
      (.none, (r.unregisterDataAccessor proxy.xpDataref).set a
        ({ proxy with state := .inactive }).clear)
    | _ => (.dataproxyInvalidState, r)

/-- `drop_dataproxy` -/
def dropDataproxy (proxy : Option ℕ) : ErrorCode × DataproxyRegistry :=
  r.onProxy o proxy fun a proxy =>
    if proxy.state ≠ .registered then (.dataproxyInvalidState, r)
    else (.none, r.set a { proxy with
      state := .dropped
      ownerSession := none
      operationsRef := none
      operations := .cleared })

/-- The arguments of `reserve_dataproxy`. -/
structure Reservation where
  datarefName : Option (List UInt8)
  types : BitVec 32
  writePermission : UInt8
  operationsRef : Option ℕ
  session : Option ℕ
  operations : DataproxyOperations

/-- `create_dataproxy` and `hashmap_put`, four allocations. -/
def addDataproxy (datarefName : List UInt8) : Option (ℕ × DataproxyRegistry) :=
  if o.alloc 0 && o.alloc 1 && o.alloc 2 && o.alloc 3 then
    some (r.proxies.length, { r with
      byDatarefName := r.byDatarefName.put datarefName r.proxies.length
      proxies := r.proxies ++ [.create (cString datarefName)] })
  else none

/-- The proxy of a name, created if there is none yet. -/
def findOrAddDataproxy (datarefName : List UInt8) : Option (ℕ × DataproxyRegistry) :=
  match r.byDatarefName.get datarefName with
  | some a => some (a, r)
  | none => r.addDataproxy o datarefName

/-- The end of `reserve_dataproxy`: an inactive proxy is reserved. -/
def reserveInactive (a : ℕ) (reservation : Reservation) : Option ℕ × DataproxyRegistry :=
  match r.proxies[a]? with
  | none => (none, r)
  | some proxy =>
    if proxy.state ≠ .inactive then (none, r)
    else
      (some a, r.set a { proxy with
        state := .reserved
        types := reservation.types
        writePermission := reservation.writePermission
        operationsRef := reservation.operationsRef
        ownerSession := reservation.session
        operations := reservation.operations })

/-- `reserve_dataproxy` on the proxy of the name: one that was dropped is unregistered first. -/
def reserveAt (a : ℕ) (reservation : Reservation) : Option ℕ × DataproxyRegistry :=
  if r.proxies[a]?.map Dataproxy.state = some .dropped then
    let (err, r) := r.unregisterDataproxy o.held (some a)
    if err ≠ .none then (none, r) else r.reserveInactive a reservation
  else r.reserveInactive a reservation

/-- The checks that `reserve_dataproxy` makes on its arguments. -/
def Reservation.isValid (reservation : Reservation) : Bool :=
  isValidCombinedType reservation.types && isValidWritePermission reservation.writePermission &&
    reservation.operations.hasAllOperations

/-- `reserve_dataproxy` -/
def reserveDataproxy (reservation : Reservation) : Option ℕ × DataproxyRegistry :=
  match reservation.datarefName, reservation.session with
  | some datarefName, some _ =>
    if !reservation.isValid then (none, r)
    else if o.lock ≠ .none then (none, r)
    else
      match r.findOrAddDataproxy o datarefName with
      | none => (none, r)
      | some (a, r) => r.reserveAt o a reservation
  | _, _ => (none, r)

/-- `list_dataproxies_with_state`; the list and its blocks are allocated. -/
def listDataproxiesWithState (state : DataproxyState) : Option (List ℕ) :=
  let list := r.byDatarefName.toList.filter fun a =>
    r.proxies[a]?.map Dataproxy.state = some state
  if (List.range (list.length + 1)).all o.alloc then some list else none

/-- The loop of `unregister_dropped_dataproxies`. -/
def unregisterLoop : List ℕ → ErrorCode → DataproxyRegistry → ErrorCode × DataproxyRegistry
  | [], outErr, r => (outErr, r)
  | a :: list, outErr, r =>
    if r.proxies[a]?.map Dataproxy.state = some .dropped then
      let (err, r) := r.unregisterDataproxy o.held (some a)
      unregisterLoop list (if err ≠ .none then .unspecific else outErr) r
    else unregisterLoop list outErr r

/-- `unregister_dropped_dataproxies` -/
def unregisterDroppedDataproxies : ErrorCode × DataproxyRegistry :=
  if o.lock ≠ .none then (o.lock, r)
  else
    match r.listDataproxiesWithState o.held .dropped with
    | none => (.memoryAllocation, r)
    | some list => unregisterLoop o list .none r

end DataproxyRegistry

/-- The operations on a registry. -/
inductive DataproxyCall where
  | reserve (reservation : DataproxyRegistry.Reservation)
  | register (proxy : Option ℕ)
  | unregister (proxy : Option ℕ)
  | release (proxy : Option ℕ)
  | drop (proxy : Option ℕ)
  | unregisterDropped

namespace DataproxyCall

/-- The operation: whether it reports an error, and the registry after it. -/
def exec (o : Outcomes) (r : DataproxyRegistry) : DataproxyCall → Bool × DataproxyRegistry
  | reserve reservation => (r.reserveDataproxy o reservation).map Option.isNone id
  | register proxy => (r.registerDataproxy o proxy).map (· ≠ .none) id
  | unregister proxy => (r.unregisterDataproxy o proxy).map (· ≠ .none) id
  | release proxy => (r.releaseDataproxy o proxy).map (· ≠ .none) id
  | drop proxy => (r.dropDataproxy o proxy).map (· ≠ .none) id
  | unregisterDropped => (r.unregisterDroppedDataproxies o).map (· ≠ .none) id

/-- The registry after a sequence of operations. -/
def run (calls : List (Outcomes × DataproxyCall)) : DataproxyRegistry :=
  calls.foldl (fun r call => (call.2.exec call.1 r).2) .create

end DataproxyCall

end XprcServer
