import XprcServer.Dataproxy.Lifecycle

/-!
# Access to data proxies

The data requests of `dataproxy.c`.  A write is checked under the lock of the registry: the proxy
has to be registered, to host the type, and to admit the session the request comes from.  The setter
of the owner is copied and called after the registry was unlocked, a getter while it is locked.
X-Plane writes through wrappers, which name no session.

* `write_reaches_setter_iff` : for every registry that operations can produce, which writes reach
  the setter of the owner.
-/

namespace XprcServer

/-! ### Types -/

/-- `xplmType_Int` -/
def xplmTypeInt : BitVec 32 := 1

/-- `xplmType_Float` -/
def xplmTypeFloat : BitVec 32 := 2

/-- `xplmType_Double` -/
def xplmTypeDouble : BitVec 32 := 4

/-- `xplmType_FloatArray` -/
def xplmTypeFloatArray : BitVec 32 := 8

/-- `xplmType_IntArray` -/
def xplmTypeIntArray : BitVec 32 := 16

/-- `xplmType_Data` -/
def xplmTypeData : BitVec 32 := 32

/-- `is_simple_type` -/
def isSimpleType (type : BitVec 32) : Bool :=
  type = xplmTypeInt || type = xplmTypeFloat || type = xplmTypeDouble

/-- `is_array_type` -/
def isArrayType (type : BitVec 32) : Bool :=
  type = xplmTypeIntArray || type = xplmTypeFloatArray || type = xplmTypeData

/-! ### Writes -/

/-- A call of a setter that the owner of a proxy supplied.  Values `α` are passed on untouched. -/
structure SetterCall (α : Type) where
  setter : ℕ
  operationsRef : Option ℕ
  type : BitVec 32
  value : α
  offset : ℤ
  count : ℤ
  sourceSession : Option ℕ
  deriving DecidableEq, Repr

namespace Dataproxy

/-- `dataproxy_can_write` of a locked proxy -/
def canWrite (proxy : Dataproxy) (session : Option ℕ) : Bool :=
  if proxy.state = .registered then
    proxy.writePermission = permissionAll ||
      (session.isSome && (proxy.writePermission = permissionXprc || session = proxy.ownerSession))
  else false

/-- The part of the setters that runs under the lock: the callback and its reference are copied. -/
def copySetter (proxy : Dataproxy) (operation : DataproxyOperations → Option ℕ)
    (type : BitVec 32) (sourceSession : Option ℕ) : Except ErrorCode (ℕ × Option ℕ) :=
  if proxy.state ≠ .registered then .error .dataproxyInvalidState
  else if !proxy.canWrite sourceSession then .error .dataproxyPermissionDenied
  else
    match operation proxy.operations with
    | none => .error .dataproxyUnsupportedType
    | some setter =>
      if proxy.types &&& type = 0 then .error .dataproxyUnsupportedType
      else .ok (setter, proxy.operationsRef)

end Dataproxy

namespace DataproxyRegistry

variable {α : Type} (o : Outcomes) (r : DataproxyRegistry)

/-- `lock_dataproxy` and what is read of the proxy under the lock. -/
def lockProxy (proxy : Option ℕ) : Except ErrorCode Dataproxy :=
  match proxy.bind (r.proxies[·]?) with
  | none => .error .unspecific
  | some proxy => if o.lock ≠ .none then .error o.lock else .ok proxy

/-- `dataproxy_simple_set` up to the call of the setter: the call, or the error that is returned
without one. -/
def dataproxySimpleSet (proxy : Option ℕ) (type : BitVec 32) (value : Option α)
    (sourceSession : Option ℕ) : Except ErrorCode (SetterCall α) :=
  match value with
  | none => .error .unspecific
  | some value =>
    if !isSimpleType type then .error .dataproxyUnsupportedType
    else do
      let proxy ← r.lockProxy o proxy
      let (setter, operationsRef) ←
        proxy.copySetter DataproxyOperations.simpleSet type sourceSession
      return ⟨setter, operationsRef, type, value, 0, 1, sourceSession⟩

/-- `dataproxy_array_update` up to the call of the setter.  Without any values to set it returns
`ERROR_NONE` at once. -/
def dataproxyArrayUpdate (proxy : Option ℕ) (type : BitVec 32) (values : Option α)
    (offset count : ℤ) (sourceSession : Option ℕ) : Except ErrorCode (SetterCall α) :=
  match values with
  | none => .error .unspecific
  | some values =>
    if offset < 0 ∨ count < 0 then .error .unspecific
    else if !isArrayType type then .error .dataproxyUnsupportedType
    else if count = 0 then .error .none
    else do
      let proxy ← r.lockProxy o proxy
      let (setter, operationsRef) ←
        proxy.copySetter DataproxyOperations.arrayUpdate type sourceSession
      return ⟨setter, operationsRef, type, values, offset, count, sourceSession⟩

/-! ### Reads -/

/-- A call of a getter that the owner of a proxy supplied; it is made under the lock. -/
structure GetterCall where
  getter : ℕ
  operationsRef : Option ℕ
  type : BitVec 32
  deriving DecidableEq, Repr

/-- The common part of the getters: the callback of a registered proxy that hosts the type. -/
def findGetter (proxy : Option ℕ) (operation : DataproxyOperations → Option ℕ)
    (type : BitVec 32) : Except ErrorCode GetterCall := do
  let proxy ← r.lockProxy o proxy
  if proxy.state ≠ .registered then .error .dataproxyInvalidState
  else
    match operation proxy.operations with
    | none => .error .dataproxyUnsupportedType
    | some getter =>
      if proxy.types &&& type = 0 then .error .dataproxyUnsupportedType
      else .ok ⟨getter, proxy.operationsRef, type⟩

/-- `dataproxy_simple_get` up to the call of the getter; `dest` says that there is a destination. -/
def dataproxySimpleGet (proxy : Option ℕ) (type : BitVec 32) (dest : Bool) :
    Except ErrorCode GetterCall :=
  if !dest then .error .unspecific
  else if !isSimpleType type then .error .dataproxyUnsupportedType
  else r.findGetter o proxy DataproxyOperations.simpleGet type

/-- `dataproxy_array_get` up to the call of the getter -/
def dataproxyArrayGet (proxy : Option ℕ) (type : BitVec 32) (dest numCopied : Bool)
    (offset count : ℤ) : Except ErrorCode GetterCall :=
  if !dest || !numCopied || offset < 0 || count < 0 then .error .unspecific
  else if !isArrayType type then .error .dataproxyUnsupportedType
  else if count = 0 then .error .none
  else r.findGetter o proxy DataproxyOperations.arrayGet type

/-- `dataproxy_array_length` up to the call of the getter; the type is only compared with those the
proxy hosts. -/
def dataproxyArrayLength (proxy : Option ℕ) (type : BitVec 32) (length : Bool) :
    Except ErrorCode GetterCall :=
  if !length then .error .unspecific
  else r.findGetter o proxy DataproxyOperations.arrayLength type

/-! ### The accessors registered with X-Plane -/

/-- `dataproxy_xp_set_data_integer` -/
def dataproxyXpSetDataInteger (inRefcon : Option ℕ) (inValue : α) :
    Except ErrorCode (SetterCall α) :=
  r.dataproxySimpleSet o inRefcon xplmTypeInt (some inValue) none

/-- `dataproxy_xp_set_data_float` -/
def dataproxyXpSetDataFloat (inRefcon : Option ℕ) (inValue : α) : Except ErrorCode (SetterCall α) :=
  r.dataproxySimpleSet o inRefcon xplmTypeFloat (some inValue) none

/-- `dataproxy_xp_set_data_double` -/
def dataproxyXpSetDataDouble (inRefcon : Option ℕ) (inValue : α) :
    Except ErrorCode (SetterCall α) :=
  r.dataproxySimpleSet o inRefcon xplmTypeDouble (some inValue) none

/-- `dataproxy_xp_set_data_integer_array` -/
def dataproxyXpSetDataIntegerArray (inRefcon : Option ℕ) (inValues : Option α)
    (inOffset inCount : ℤ) : Except ErrorCode (SetterCall α) :=
  r.dataproxyArrayUpdate o inRefcon xplmTypeIntArray inValues inOffset inCount none

/-- `dataproxy_xp_set_data_float_array` -/
def dataproxyXpSetDataFloatArray (inRefcon : Option ℕ) (inValues : Option α)
    (inOffset inCount : ℤ) : Except ErrorCode (SetterCall α) :=
  r.dataproxyArrayUpdate o inRefcon xplmTypeFloatArray inValues inOffset inCount none

/-- `dataproxy_xp_set_data_byte_array` -/
def dataproxyXpSetDataByteArray (inRefcon : Option ℕ) (inValue : Option α)
    (inOffset inLength : ℤ) : Except ErrorCode (SetterCall α) :=
  r.dataproxyArrayUpdate o inRefcon xplmTypeData inValue inOffset inLength none

end DataproxyRegistry

/-- The ways to write to a proxy. -/
inductive Write (α : Type) where
  | simpleSet (type : BitVec 32) (value : Option α) (sourceSession : Option ℕ)
  | arrayUpdate (type : BitVec 32) (values : Option α) (offset count : ℤ) (sourceSession : Option ℕ)
  | xpInteger (value : α)
  | xpFloat (value : α)
  | xpDouble (value : α)
  | xpIntegerArray (values : Option α) (offset count : ℤ)
  | xpFloatArray (values : Option α) (offset count : ℤ)
  | xpByteArray (values : Option α) (offset count : ℤ)

namespace Write

variable {α : Type}

/-- The function that is called. -/
def exec (o : Outcomes) (r : DataproxyRegistry) (proxy : Option ℕ) :
    Write α → Except ErrorCode (SetterCall α)
  | simpleSet type value source => r.dataproxySimpleSet o proxy type value source
  | arrayUpdate type values offset count source =>
    r.dataproxyArrayUpdate o proxy type values offset count source
  | xpInteger value => r.dataproxyXpSetDataInteger o proxy value
  | xpFloat value => r.dataproxyXpSetDataFloat o proxy value
  | xpDouble value => r.dataproxyXpSetDataDouble o proxy value
  | xpIntegerArray values offset count =>
    r.dataproxyXpSetDataIntegerArray o proxy values offset count
  | xpFloatArray values offset count => r.dataproxyXpSetDataFloatArray o proxy values offset count
  | xpByteArray values offset count => r.dataproxyXpSetDataByteArray o proxy values offset count

/-- The type that is written. -/
def type : Write α → BitVec 32
  | simpleSet type _ _ => type
  | arrayUpdate type _ _ _ _ => type
  | xpInteger _ => xplmTypeInt
  | xpFloat _ => xplmTypeFloat
  | xpDouble _ => xplmTypeDouble
  | xpIntegerArray _ _ _ => xplmTypeIntArray
  | xpFloatArray _ _ _ => xplmTypeFloatArray
  | xpByteArray _ _ _ => xplmTypeData

/-- The session the write comes from; X-Plane names none. -/
def sourceSession : Write α → Option ℕ
  | simpleSet _ _ source => source
  | arrayUpdate _ _ _ _ source => source
  | _ => none

/-- The setter of the owner that is meant. -/
def operation : Write α → DataproxyOperations → Option ℕ
  | simpleSet _ _ _ => DataproxyOperations.simpleSet
  | xpInteger _ => DataproxyOperations.simpleSet
  | xpFloat _ => DataproxyOperations.simpleSet
  | xpDouble _ => DataproxyOperations.simpleSet
  | _ => DataproxyOperations.arrayUpdate

/-- The type is a single one of the kind the function is for, and the arguments can be used: there
are values, and for arrays an offset into the array and something to copy. -/
def WellFormed : Write α → Prop
  | simpleSet type value _ => isSimpleType type = true ∧ value.isSome
  | arrayUpdate type values offset count _ =>
    isArrayType type = true ∧ values.isSome ∧ 0 ≤ offset ∧ 0 < count
  | xpIntegerArray values offset count => values.isSome ∧ 0 ≤ offset ∧ 0 < count
  | xpFloatArray values offset count => values.isSome ∧ 0 ≤ offset ∧ 0 < count
  | xpByteArray values offset count => values.isSome ∧ 0 ≤ offset ∧ 0 < count
  | _ => True

end Write

/-- The permission of the proxy admits a write by the session: everybody may write, or every
session, or the session that owns the proxy. -/
def Dataproxy.Admits (proxy : Dataproxy) (source : Option ℕ) : Prop :=
  proxy.writePermission = permissionAll ∨
    (proxy.writePermission = permissionXprc ∧ source.isSome) ∨
    (proxy.writePermission = permissionSession ∧ source = proxy.ownerSession)

/-! ### Permissions are always valid -/

namespace DataproxyRegistry

/-- Every proxy has one of the three permissions. -/
def Permitted (r : DataproxyRegistry) : Prop :=
  ∀ p ∈ r.proxies, isValidWritePermission p.writePermission = true

variable {o : Outcomes} {r : DataproxyRegistry} {a : ℕ} {p : Dataproxy} {proxy : Option ℕ}

theorem Permitted.set {r' : DataproxyRegistry} (h : r.Permitted)
    (hset : r'.proxies = r.proxies.set a p)
    (hp : isValidWritePermission p.writePermission = true) : r'.Permitted := by
  intro q hq
  rw [hset] at hq
  rcases List.mem_or_eq_of_mem_set hq with hq | rfl
  · exact h q hq
  · exact hp

theorem Permitted.onProxy {body : ℕ → Dataproxy → ErrorCode × DataproxyRegistry} (h : r.Permitted)
    (hbody : ∀ a p, isValidWritePermission p.writePermission = true → (body a p).2.Permitted) :
    (r.onProxy o proxy body).2.Permitted := by
  unfold DataproxyRegistry.onProxy
  cases proxy with
  | none => exact h
  | some a =>
    cases hp : r.proxies[a]? with
    | none => simpa [hp] using h
    | some p =>
      simp only [hp]
      split_ifs
      · exact h
      · exact hbody a p (h p (List.mem_of_getElem? hp))

theorem Permitted.register (h : r.Permitted) : (r.registerDataproxy o proxy).2.Permitted := by
  refine h.onProxy fun a p hp => ?_
  split_ifs
  · exact h
  · cases o.registerDataAccessor with
    | none => exact h.set rfl hp
    | some ref => exact h.set rfl hp

theorem Permitted.release (h : r.Permitted) : (r.releaseDataproxy o proxy).2.Permitted := by
  refine h.onProxy fun a p _ => ?_
  split_ifs
  · exact h
  · exact h.set rfl rfl

theorem Permitted.unregister (h : r.Permitted) : (r.unregisterDataproxy o proxy).2.Permitted := by
  refine h.onProxy fun a p hp => ?_
  have haccessors : (r.unregisterDataAccessor p.xpDataref).Permitted := by
    unfold unregisterDataAccessor
    cases p.xpDataref with
    | none => exact h
    | some ref => exact h
  cases p.state with
  | inactive => exact h
  | reserved => exact h
  | registered => exact haccessors.set rfl hp
  | dropped => exact haccessors.set rfl rfl

theorem Permitted.drop (h : r.Permitted) : (r.dropDataproxy o proxy).2.Permitted := by
  refine h.onProxy fun a p hp => ?_
  split_ifs
  · exact h
  · exact h.set rfl hp

theorem Permitted.reserveInactive (h : r.Permitted) {reservation : Reservation}
    (hres : isValidWritePermission reservation.writePermission = true) :
    (r.reserveInactive a reservation).2.Permitted := by
  unfold DataproxyRegistry.reserveInactive
  cases r.proxies[a]? with
  | none => exact h
  | some p =>
    dsimp only
    split_ifs
    · exact h
    · exact h.set rfl hres

theorem Permitted.reserveAt (h : r.Permitted) {reservation : Reservation}
    (hres : isValidWritePermission reservation.writePermission = true) :
    (r.reserveAt o a reservation).2.Permitted := by
  unfold DataproxyRegistry.reserveAt
  split_ifs
  · have hun : (r.unregisterDataproxy o.held (some a)).2.Permitted := h.unregister
    dsimp only
    split_ifs
    · exact hun
    · exact hun.reserveInactive hres
  · exact h.reserveInactive hres

theorem Permitted.reserve (h : r.Permitted) (reservation : Reservation) :
    (r.reserveDataproxy o reservation).2.Permitted := by
  unfold DataproxyRegistry.reserveDataproxy
  split
  · rename_i datarefName _ _ _
    split_ifs with hvalid
    · exact h
    · exact h
    · have hres : isValidWritePermission reservation.writePermission = true := by
        simp only [Reservation.isValid, Bool.not_eq_true, Bool.not_eq_false', Bool.and_eq_true]
          at hvalid
        exact hvalid.1.2
      unfold findOrAddDataproxy
      cases r.byDatarefName.get datarefName with
      | some a => exact h.reserveAt hres
      | none =>
        dsimp only
        unfold addDataproxy
        split_ifs
        · refine Permitted.reserveAt ?_ hres
          intro p hp
          rcases List.mem_append.1 hp with hp | hp
          · exact h p hp
          · rw [List.mem_singleton.1 hp]
            rfl
        · exact h
  · exact h

theorem Permitted.unregisterLoop {list : List ℕ} {outErr : ErrorCode} (h : r.Permitted) :
    (DataproxyRegistry.unregisterLoop o list outErr r).2.Permitted := by
  induction list generalizing outErr r with
  | nil => exact h
  | cons a list ih =>
    unfold DataproxyRegistry.unregisterLoop
    split_ifs
    · have hun : (r.unregisterDataproxy o.held (some a)).2.Permitted := h.unregister
      exact ih hun
    · exact ih h

end DataproxyRegistry

theorem DataproxyCall.exec_permitted (call : DataproxyCall) (o : Outcomes) {r : DataproxyRegistry}
    (h : r.Permitted) : (call.exec o r).2.Permitted := by
  cases call with
  | reserve reservation => exact h.reserve reservation
  | register proxy => exact h.register
  | unregister proxy => exact h.unregister
  | release proxy => exact h.release
  | drop proxy => exact h.drop
  | unregisterDropped =>
    change (r.unregisterDroppedDataproxies o).2.Permitted
    unfold DataproxyRegistry.unregisterDroppedDataproxies
    split_ifs
    · exact h
    · split
      · exact h
      · exact h.unregisterLoop

theorem DataproxyCall.run_permitted (calls : List (Outcomes × DataproxyCall)) :
    (DataproxyCall.run calls).Permitted := by
  have hrun : ∀ r : DataproxyRegistry, r.Permitted →
      (calls.foldl (fun r call => (call.2.exec call.1 r).2) r).Permitted := by
    induction calls with
    | nil => exact fun r hr => hr
    | cons call calls ih => exact fun r hr => ih _ (call.2.exec_permitted call.1 hr)
  exact hrun _ fun p hp => nomatch hp

/-! ### Which writes reach the setter -/

/-- All types named by `type` are hosted by the proxy. -/
def Dataproxy.Hosts (proxy : Dataproxy) (type : BitVec 32) : Prop := proxy.types &&& type = type

/-- A single type is hosted iff the types have it in common. -/
theorem and_ne_zero_iff_hosts (types : BitVec 32) (i : ℕ) (hi : i < 32) :
    types &&& BitVec.twoPow 32 i ≠ 0 ↔ types &&& BitVec.twoPow 32 i = BitVec.twoPow 32 i := by
  have hne : BitVec.twoPow 32 i ≠ 0 := by
    intro h
    have hbit := congrArg (fun x : BitVec 32 => x.getLsbD i) h
    simp [hi] at hbit
  rw [BitVec.and_twoPow]
  split_ifs
  · exact ⟨fun _ => rfl, fun _ => hne⟩
  · exact ⟨fun h => absurd rfl h, fun h => absurd h.symm hne⟩

theorem exists_twoPow_of_single {type : BitVec 32}
    (h : isSimpleType type = true ∨ isArrayType type = true) :
    ∃ i, i < 32 ∧ type = BitVec.twoPow 32 i := by
  simp only [isSimpleType, isArrayType, Bool.or_eq_true, decide_eq_true_eq] at h
  rcases h with ((rfl | rfl) | rfl) | ((rfl | rfl) | rfl)
  · exact ⟨0, by omega, rfl⟩
  · exact ⟨1, by omega, rfl⟩
  · exact ⟨2, by omega, rfl⟩
  · exact ⟨4, by omega, rfl⟩
  · exact ⟨3, by omega, rfl⟩
  · exact ⟨5, by omega, rfl⟩

namespace Dataproxy

variable {p : Dataproxy} {source : Option ℕ} {operation : DataproxyOperations → Option ℕ}
  {type : BitVec 32} {setter : ℕ} {ref : Option ℕ}

/-- What `dataproxy_can_write` lets pass on a registered proxy. -/
theorem canWrite_iff (hstate : p.state = .registered) (howner : p.ownerSession.isSome)
    (hpermission : isValidWritePermission p.writePermission = true) :
    p.canWrite source = true ↔ p.Admits source := by
  simp only [isValidWritePermission, Bool.or_eq_true, decide_eq_true_eq] at hpermission
  rcases hpermission with (hp | hp) | hp
  · -- the owner's session alone; it is not NULL, so the NULL check rejects no more than the other
    have hsource : source = p.ownerSession → source.isSome := fun h => h ▸ howner
    simp only [canWrite, hstate, ↓reduceIte, hp, Admits]
    have hall : permissionSession ≠ permissionAll := by decide
    have hxprc : permissionSession ≠ permissionXprc := by decide
    simpa [hall, hxprc] using hsource
  · have hall : permissionXprc ≠ permissionAll := by decide
    have hsession : permissionXprc ≠ permissionSession := by decide
    simp [canWrite, hstate, hp, Admits, hall, hsession]
  · simp [canWrite, hstate, hp, Admits]

theorem copySetter_eq_ok :
    p.copySetter operation type source = .ok (setter, ref) ↔
      p.state = .registered ∧ p.canWrite source = true ∧ operation p.operations = some setter ∧
        p.types &&& type ≠ 0 ∧ p.operationsRef = ref := by
  unfold copySetter
  by_cases hstate : p.state = .registered
  swap
  · simp [hstate]
  by_cases hwrite : p.canWrite source = true
  swap
  · simp [hstate, hwrite]
  cases hop : operation p.operations with
  | none => simp [hstate, hwrite]
  | some found =>
    simp only [hstate, ne_eq, not_true_eq_false, ↓reduceIte, hwrite, Bool.not_true,
      Bool.false_eq_true, true_and, Option.some.injEq]
    split_ifs with htype
    · exact ⟨fun h => (nomatch h), fun h => absurd htype h.2.1⟩
    · simp only [Except.ok.injEq, Prod.mk.injEq]
      exact ⟨fun h => ⟨h.1, htype, h.2⟩, fun h => ⟨h.1, h.2.2⟩⟩

end Dataproxy

namespace DataproxyRegistry

variable {α : Type} {o : Outcomes} {r : DataproxyRegistry} {proxy : Option ℕ} {p : Dataproxy}
  {type : BitVec 32} {source : Option ℕ} {call : SetterCall α}

theorem lockProxy_eq_ok :
    r.lockProxy o proxy = .ok p ↔ o.lock = .none ∧ proxy.bind (r.proxies[·]?) = some p := by
  unfold lockProxy
  cases proxy.bind (r.proxies[·]?) with
  | none => simp
  | some found =>
    by_cases hlock : o.lock = .none
    · simp [hlock]
    · simp [hlock]

theorem dataproxySimpleSet_eq_ok {value : Option α} :
    r.dataproxySimpleSet o proxy type value source = .ok call ↔
      isSimpleType type = true ∧ ∃ v p, value = some v ∧ r.lockProxy o proxy = .ok p ∧
        p.copySetter DataproxyOperations.simpleSet type source =
          .ok (call.setter, call.operationsRef) ∧
        call = ⟨call.setter, call.operationsRef, type, v, 0, 1, source⟩ := by
  unfold dataproxySimpleSet
  cases value with
  | none => simp
  | some v =>
    cases htype : isSimpleType type with
    | false => simp
    | true =>
      cases hlock : r.lockProxy o proxy with
      | error err => simp [bind, Except.bind]
      | ok p =>
        cases hcopy : p.copySetter DataproxyOperations.simpleSet type source with
        | error err => simp [bind, Except.bind, hcopy]
        | ok found =>
          obtain ⟨setter, ref⟩ := found
          obtain ⟨setter', ref', type', v', offset', count', source'⟩ := call
          simp [bind, Except.bind, pure, Except.pure, hcopy]
          grind

theorem dataproxyArrayUpdate_eq_ok {values : Option α} {offset count : ℤ} :
    r.dataproxyArrayUpdate o proxy type values offset count source = .ok call ↔
      isArrayType type = true ∧ 0 ≤ offset ∧ 0 < count ∧
        ∃ v p, values = some v ∧ r.lockProxy o proxy = .ok p ∧
          p.copySetter DataproxyOperations.arrayUpdate type source =
            .ok (call.setter, call.operationsRef) ∧
          call = ⟨call.setter, call.operationsRef, type, v, offset, count, source⟩ := by
  unfold dataproxyArrayUpdate
  cases values with
  | none => simp
  | some v =>
    by_cases hargs : offset < 0 ∨ count < 0
    · have hno : ¬ (0 ≤ offset ∧ 0 < count) := by omega
      simp only [hargs, ↓reduceIte, reduceCtorEq, false_iff]
      rintro ⟨-, ho, hc, -⟩
      exact hno ⟨ho, hc⟩
    cases htype : isArrayType type with
    | false => simp [hargs]
    | true =>
      by_cases hcount : count = 0
      · have hoffset : ¬ offset < 0 := fun h => hargs (.inl h)
        simp [hcount, hoffset]
      have ho : 0 ≤ offset := by omega
      have hc : 0 < count := by omega
      cases hlock : r.lockProxy o proxy with
      | error err => simp [hargs, hcount, bind, Except.bind]
      | ok p =>
        cases hcopy : p.copySetter DataproxyOperations.arrayUpdate type source with
        | error err => simp [hargs, hcount, bind, Except.bind, hcopy]
        | ok found =>
          obtain ⟨setter, ref⟩ := found
          obtain ⟨setter', ref', type', v', offset', count', source'⟩ := call
          simp [hargs, hcount, ho, hc, bind, Except.bind, pure, Except.pure, hcopy]
          grind

end DataproxyRegistry

section

variable {α : Type} {o : Outcomes} {r : DataproxyRegistry} {proxy : Option ℕ}

namespace Write

theorem single_type {write : Write α} (h : write.WellFormed) :
    isSimpleType write.type = true ∨ isArrayType write.type = true := by
  cases write with
  | simpleSet type value source => exact .inl h.1
  | arrayUpdate type values offset count source => exact .inr h.1
  | xpInteger value => exact .inl rfl
  | xpFloat value => exact .inl rfl
  | xpDouble value => exact .inl rfl
  | xpIntegerArray values offset count => exact .inr rfl
  | xpFloatArray values offset count => exact .inr rfl
  | xpByteArray values offset count => exact .inr rfl

theorem isSome_operation (write : Write α) {operations : DataproxyOperations}
    (h : operations.hasAllOperations = true) : ∃ setter, write.operation operations =
      some setter := by
  simp only [DataproxyOperations.hasAllOperations, Bool.and_eq_true] at h
  obtain ⟨⟨⟨⟨-, hsimple⟩, -⟩, -⟩, harray⟩ := h
  rw [← Option.isSome_iff_exists]
  cases write with
  | simpleSet type value source => exact hsimple
  | arrayUpdate type values offset count source => exact harray
  | xpInteger value => exact hsimple
  | xpFloat value => exact hsimple
  | xpDouble value => exact hsimple
  | xpIntegerArray values offset count => exact harray
  | xpFloatArray values offset count => exact harray
  | xpByteArray values offset count => exact harray

/-- A write that reaches the setter has passed all checks. -/
theorem checked_of_exec {write : Write α} {call : SetterCall α}
    (h : write.exec o r proxy = .ok call) :
    write.WellFormed ∧ call.sourceSession = write.sourceSession ∧
      ∃ p, r.lockProxy o proxy = .ok p ∧
        p.copySetter write.operation write.type write.sourceSession =
          .ok (call.setter, call.operationsRef) := by
  have hsimple : ∀ type value source, r.dataproxySimpleSet o proxy type value source = .ok call →
      isSimpleType type = true ∧ value.isSome ∧ call.sourceSession = source ∧
        ∃ p, r.lockProxy o proxy = .ok p ∧ p.copySetter DataproxyOperations.simpleSet type source =
          .ok (call.setter, call.operationsRef) := by
    intro type value source h
    obtain ⟨htype, v, p, rfl, hlock, hcopy, hcall⟩ :=
      DataproxyRegistry.dataproxySimpleSet_eq_ok.1 h
    exact ⟨htype, rfl, by rw [hcall], p, hlock, hcopy⟩
  have harray : ∀ {type values offset count source},
      r.dataproxyArrayUpdate o proxy type values offset count source = .ok call →
      isArrayType type = true ∧ values.isSome ∧ 0 ≤ offset ∧ 0 < count ∧
        call.sourceSession = source ∧
        ∃ p, r.lockProxy o proxy = .ok p ∧
          p.copySetter DataproxyOperations.arrayUpdate type source =
          .ok (call.setter, call.operationsRef) := by
    intro type values offset count source h
    obtain ⟨htype, ho, hc, v, p, rfl, hlock, hcopy, hcall⟩ :=
      DataproxyRegistry.dataproxyArrayUpdate_eq_ok.1 h
    exact ⟨htype, rfl, ho, hc, by rw [hcall], p, hlock, hcopy⟩
  cases write with
  | simpleSet type value source =>
    obtain ⟨htype, hvalue, hrest⟩ := hsimple type value source h
    exact ⟨⟨htype, hvalue⟩, hrest⟩
  | arrayUpdate type values offset count source =>
    obtain ⟨htype, hvalues, ho, hc, hrest⟩ := harray h
    exact ⟨⟨htype, hvalues, ho, hc⟩, hrest⟩
  | xpInteger value => exact ⟨trivial, (hsimple xplmTypeInt (some value) none h).2.2⟩
  | xpFloat value => exact ⟨trivial, (hsimple xplmTypeFloat (some value) none h).2.2⟩
  | xpDouble value => exact ⟨trivial, (hsimple xplmTypeDouble (some value) none h).2.2⟩
  | xpIntegerArray values offset count =>
    obtain ⟨-, hvalues, ho, hc, hrest⟩ := harray h
    exact ⟨⟨hvalues, ho, hc⟩, hrest⟩
  | xpFloatArray values offset count =>
    obtain ⟨-, hvalues, ho, hc, hrest⟩ := harray h
    exact ⟨⟨hvalues, ho, hc⟩, hrest⟩
  | xpByteArray values offset count =>
    obtain ⟨-, hvalues, ho, hc, hrest⟩ := harray h
    exact ⟨⟨hvalues, ho, hc⟩, hrest⟩

/-- A write that passes all checks reaches the setter. -/
theorem exec_of_checked {write : Write α} {p : Dataproxy} {setter : ℕ} {ref : Option ℕ}
    (hform : write.WellFormed) (hlock : r.lockProxy o proxy = .ok p)
    (hcopy : p.copySetter write.operation write.type write.sourceSession = .ok (setter, ref)) :
    ∃ call, write.exec o r proxy = .ok call := by
  have hsimple : ∀ type value source, isSimpleType type = true → value.isSome →
      p.copySetter DataproxyOperations.simpleSet type source = .ok (setter, ref) →
      ∃ call, r.dataproxySimpleSet (α := α) o proxy type value source = .ok call := by
    intro type value source htype hvalue hcopy
    obtain ⟨v, rfl⟩ := Option.isSome_iff_exists.1 hvalue
    exact ⟨⟨setter, ref, type, v, 0, 1, source⟩,
      DataproxyRegistry.dataproxySimpleSet_eq_ok.2 ⟨htype, v, p, rfl, hlock, hcopy, rfl⟩⟩
  have harray : ∀ {type values offset count source}, isArrayType type = true → values.isSome →
      0 ≤ offset → 0 < count →
      p.copySetter DataproxyOperations.arrayUpdate type source = .ok (setter, ref) →
      ∃ call, r.dataproxyArrayUpdate (α := α) o proxy type values offset count source =
        .ok call := by
    intro type values offset count source htype hvalues ho hc hcopy
    obtain ⟨v, rfl⟩ := Option.isSome_iff_exists.1 hvalues
    exact ⟨⟨setter, ref, type, v, offset, count, source⟩,
      DataproxyRegistry.dataproxyArrayUpdate_eq_ok.2 ⟨htype, ho, hc, v, p, rfl, hlock, hcopy, rfl⟩⟩
  cases write with
  | simpleSet type value source => exact hsimple type value source hform.1 hform.2 hcopy
  | arrayUpdate type values offset count source =>
    exact harray hform.1 hform.2.1 hform.2.2.1 hform.2.2.2 hcopy
  | xpInteger value => exact hsimple xplmTypeInt (some value) none rfl rfl hcopy
  | xpFloat value => exact hsimple xplmTypeFloat (some value) none rfl rfl hcopy
  | xpDouble value => exact hsimple xplmTypeDouble (some value) none rfl rfl hcopy
  | xpIntegerArray values offset count => exact harray rfl hform.1 hform.2.1 hform.2.2 hcopy
  | xpFloatArray values offset count => exact harray rfl hform.1 hform.2.1 hform.2.2 hcopy
  | xpByteArray values offset count => exact harray rfl hform.1 hform.2.1 hform.2.2 hcopy

end Write

/-- What a registered proxy of a reachable registry has. -/
theorem registered_of_run {calls : List (Outcomes × DataproxyCall)} {p : Dataproxy}
    (hp : proxy.bind ((DataproxyCall.run calls).proxies[·]?) = some p)
    (hstate : p.state = .registered) :
    p.ownerSession.isSome ∧ p.operations.hasAllOperations = true ∧
      isValidWritePermission p.writePermission = true := by
  obtain ⟨a, -, ha⟩ := Option.bind_eq_some_iff.1 hp
  have hconsistent := (DataproxyCall.run_invariant calls).consistent a p ha
  simp only [Dataproxy.Consistent, hstate] at hconsistent
  exact ⟨hconsistent.1, hconsistent.2.1, DataproxyCall.run_permitted calls p
    (List.mem_of_getElem? ha)⟩

/-- A write reaches the setter iff all that is checked is in order. -/
theorem write_reaches_iff (calls : List (Outcomes × DataproxyCall)) (o : Outcomes)
    (proxy : Option ℕ) (write : Write α) :
    (∃ call, write.exec o (DataproxyCall.run calls) proxy = .ok call) ↔
      o.lock = .none ∧ write.WellFormed ∧
        ∃ p, proxy.bind ((DataproxyCall.run calls).proxies[·]?) = some p ∧
          p.state = .registered ∧ p.Hosts write.type ∧ p.Admits write.sourceSession := by
  constructor
  · rintro ⟨call, hexec⟩
    obtain ⟨hform, -, p, hlock, hcopy⟩ := Write.checked_of_exec hexec
    obtain ⟨hnone, hp⟩ := DataproxyRegistry.lockProxy_eq_ok.1 hlock
    obtain ⟨hstate, hwrite, -, htype, -⟩ := Dataproxy.copySetter_eq_ok.1 hcopy
    obtain ⟨howner, -, hpermission⟩ := registered_of_run hp hstate
    obtain ⟨i, hi, hsingle⟩ := exists_twoPow_of_single (Write.single_type hform)
    refine ⟨hnone, hform, p, hp, hstate, ?_,
      (Dataproxy.canWrite_iff hstate howner hpermission).1 hwrite⟩
    rw [Dataproxy.Hosts, hsingle]
    exact (and_ne_zero_iff_hosts p.types i hi).1 (hsingle ▸ htype)
  · rintro ⟨hnone, hform, p, hp, hstate, hhosts, hadmits⟩
    obtain ⟨howner, hall, hpermission⟩ := registered_of_run hp hstate
    obtain ⟨i, hi, hsingle⟩ := exists_twoPow_of_single (Write.single_type hform)
    obtain ⟨setter, hsetter⟩ := write.isSome_operation hall
    have htype : p.types &&& write.type ≠ 0 := by
      rw [hsingle]
      refine (and_ne_zero_iff_hosts p.types i hi).2 ?_
      rw [Dataproxy.Hosts, hsingle] at hhosts
      exact hhosts
    exact Write.exec_of_checked hform (DataproxyRegistry.lockProxy_eq_ok.2 ⟨hnone, hp⟩)
      (Dataproxy.copySetter_eq_ok.2 ⟨hstate,
        (Dataproxy.canWrite_iff hstate howner hpermission).2 hadmits, hsetter, htype, rfl⟩)

/-- **Which writes reach the setter.**  For every registry that operations can produce: once the
registry is locked, a write reaches the setter of the owner iff its arguments can be used, the proxy
is registered and hosts the type, and the permission admits the session the write comes from.  It is
then the setter that belongs to the owner's reference.  Nothing but the owner reaches the setter of
a proxy that is writable for its session. -/
theorem write_reaches_setter_iff (calls : List (Outcomes × DataproxyCall)) (o : Outcomes)
    (proxy : Option ℕ) (write : Write α) :
    let r := DataproxyCall.run calls
    ((∃ call, write.exec o r proxy = .ok call) ↔
      o.lock = .none ∧ write.WellFormed ∧ ∃ p, proxy.bind (r.proxies[·]?) = some p ∧
        p.state = .registered ∧ p.Hosts write.type ∧ p.Admits write.sourceSession) ∧
    (∀ call p, write.exec o r proxy = .ok call → proxy.bind (r.proxies[·]?) = some p →
      write.operation p.operations = some call.setter ∧ call.operationsRef = p.operationsRef ∧
        call.sourceSession = write.sourceSession) ∧
    (∀ p, proxy.bind (r.proxies[·]?) = some p → p.writePermission = permissionSession →
      write.sourceSession = none ∨ write.sourceSession ≠ p.ownerSession →
      ¬ ∃ call, write.exec o r proxy = .ok call) := by
  intro r
  refine ⟨write_reaches_iff calls o proxy write, ?_, ?_⟩
  · intro call p hexec hp
    obtain ⟨-, hsource, p', hlock, hcopy⟩ := Write.checked_of_exec hexec
    obtain ⟨-, hp'⟩ := DataproxyRegistry.lockProxy_eq_ok.1 hlock
    obtain rfl : p = p' := Option.some.inj (hp.symm.trans hp')
    obtain ⟨-, -, hsetter, -, href⟩ := Dataproxy.copySetter_eq_ok.1 hcopy
    exact ⟨hsetter, href.symm, hsource⟩
  · intro p hp hpermission hforeign hreaches
    obtain ⟨-, -, p', hp', hstate, -, hadmits⟩ := (write_reaches_iff calls o proxy write).1 hreaches
    obtain rfl : p = p' := Option.some.inj (hp.symm.trans hp')
    obtain ⟨howner, -⟩ := registered_of_run hp hstate
    have howned : write.sourceSession = p.ownerSession := by
      rcases hadmits with h | ⟨h, -⟩ | ⟨-, h⟩
      · rw [hpermission] at h; exact absurd h (by decide)
      · rw [hpermission] at h; exact absurd h (by decide)
      · exact h
    rcases hforeign with hnull | hforeign
    · rw [hnull] at howned
      rw [← howned] at howner
      cases howner
    · exact hforeign howned

end

end XprcServer
