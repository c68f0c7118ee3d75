import XprcServer.Dataproxy.Basic
import Mathlib.Data.List.Perm.Basic
import Mathlib.Data.List.TakeWhile
import Mathlib.Algebra.Order.Group.Multiset

/-!
# The life-cycle of data proxies

Over every sequence of operations on a registry, the fields of each proxy fit its state
(`Dataproxy.Consistent`), and X-Plane has an accessor for exactly the proxies that are registered or
dropped.  `RegistryInvariant` says this and that the proxies can be found under their names; every
operation keeps it, and an operation that fails changes nothing (`Kept`).

* `unregisterLoop_spec` : the maintenance loop leaves none of the listed proxies dropped;
* `dataproxy_lifecycle` : the life-cycle, for all sequences of operations.
-/

namespace XprcServer

/-- The fields of a proxy fit its state. -/
def Dataproxy.Consistent (p : Dataproxy) : Prop :=
  match p.state with
  | .inactive => p.ownerSession = none ∧ p.types = xplmTypeUnknown ∧
      p.writePermission = permissionSession ∧ p.operations = .cleared ∧ p.operationsRef = none ∧
      p.xpDataref = none
  | .reserved => p.ownerSession.isSome ∧ p.operations.hasAllOperations ∧ p.xpDataref = none
  | .registered => p.ownerSession.isSome ∧ p.operations.hasAllOperations ∧ p.xpDataref.isSome
  | .dropped => p.ownerSession = none ∧ p.operations = .cleared ∧ p.operationsRef = none ∧
      p.xpDataref.isSome

/-- The datarefs of the proxies that are registered or dropped. -/
def DataproxyRegistry.registeredDatarefs (r : DataproxyRegistry) : Multiset ℕ :=
  (r.proxies.filterMap Dataproxy.accessor : List ℕ)

/-- What holds of a registry between operations. -/
structure RegistryInvariant (r : DataproxyRegistry) : Prop where
  consistent : ∀ (a : ℕ) p, r.proxies[a]? = some p → p.Consistent
  accessors : r.accessors = r.registeredDatarefs
  named : ∀ (a : ℕ) p, r.proxies[a]? = some p → r.byDatarefName.get p.datarefName = some a
  found : ∀ name a, r.byDatarefName.get name = some a →
    ∃ p, r.proxies[a]? = some p ∧ p.datarefName = cString name

/-- The invariant holds after the operation, and a failed operation changed nothing. -/
structure Kept (r : DataproxyRegistry) (failed : Prop) (r' : DataproxyRegistry) : Prop where
  invariant : RegistryInvariant r'
  unchanged : failed → r' = r

/-! ### Changing one proxy -/

/-- Replacing one element of a list replaces what a function selects from it. -/
theorem coe_filterMap_set {α γ : Type} (f : α → Option γ) {l : List α} {i : ℕ} {x : α}
    (hx : l[i]? = some x) (y : α) :
    (((l.set i y).filterMap f : List γ) : Multiset γ) + (f x).toList =
      (l.filterMap f : List γ) + (f y).toList := by
  obtain ⟨hi, rfl⟩ := List.getElem?_eq_some_iff.1 hx
  have hcons : ∀ z, (((z :: l.eraseIdx i).filterMap f : List γ) : Multiset γ) =
      (f z).toList + ((l.eraseIdx i).filterMap f : List γ) := by
    intro z
    cases hz : f z with
    | none => simp [hz]
    | some c => simp [hz, ← Multiset.cons_coe]
  have hset : (((l.set i y).filterMap f : List γ) : Multiset γ) =
      ((y :: l.eraseIdx i).filterMap f : List γ) :=
    Multiset.coe_eq_coe.2 ((List.set_perm_cons_eraseIdx hi y).filterMap f)
  have hself : ((l.filterMap f : List γ) : Multiset γ) =
      ((l[i] :: l.eraseIdx i).filterMap f : List γ) :=
    Multiset.coe_eq_coe.2 ((List.getElem_cons_eraseIdx_perm hi).symm.filterMap f)
  rw [hset, hself, hcons, hcons]
  rw [add_comm, add_comm (((f y).toList : List γ) : Multiset γ), ← add_assoc]

theorem cString_cString (s : List UInt8) : cString (cString s) = cString s :=
  List.takeWhile_idem

namespace RegistryInvariant

variable {r : DataproxyRegistry} {a : ℕ} {p p' : Dataproxy}

theorem create : RegistryInvariant .create where
  consistent a p hp := by simp [DataproxyRegistry.create] at hp
  accessors := rfl
  named a p hp := by simp [DataproxyRegistry.create] at hp
  found name a h := by simp [DataproxyRegistry.create, Hashmap.get] at h

/-- A proxy is changed, together with the accessors. -/
theorem set (h : RegistryInvariant r) (hp : r.proxies[a]? = some p)
    (hconsistent : p'.Consistent) (hname : p'.datarefName = p.datarefName) {accessors : Multiset ℕ}
    (haccessors : accessors + p.accessor.toList = r.accessors + p'.accessor.toList) :
    RegistryInvariant { r.set a p' with accessors := accessors } := by
  have ha : a < r.proxies.length := (List.getElem?_eq_some_iff.1 hp).1
  have hget : ∀ b q, (r.proxies.set a p')[b]? = some q →
      (b = a ∧ q = p') ∨ (b ≠ a ∧ r.proxies[b]? = some q) := by
    intro b q hq
    by_cases hb : b = a
    · subst hb
      rw [List.getElem?_set_self ha, Option.some.injEq] at hq
      exact .inl ⟨rfl, hq.symm⟩
    · rw [List.getElem?_set_ne (Ne.symm hb)] at hq
      exact .inr ⟨hb, hq⟩
  refine ⟨fun b q hq => ?_, ?_, fun b q hq => ?_, fun name b hb => ?_⟩
  · rcases hget b q hq with ⟨-, rfl⟩ | ⟨-, hq⟩
    · exact hconsistent
    · exact h.consistent b q hq
  · have hset := coe_filterMap_set Dataproxy.accessor hp p'
    change accessors = ((r.proxies.set a p').filterMap Dataproxy.accessor : List ℕ)
    rw [← add_left_inj (p.accessor.toList : Multiset ℕ), haccessors, hset, h.accessors]
    rfl
  · rcases hget b q hq with ⟨rfl, rfl⟩ | ⟨-, hq⟩
    · rw [hname]
      exact h.named b p hp
    · exact h.named b q hq
  · obtain ⟨q, hq, hqname⟩ := h.found name b hb
    by_cases hba : b = a
    · subst hba
      have hpq : p = q := Option.some.inj (hp.symm.trans hq)
      exact ⟨p', List.getElem?_set_self ha, by rw [hname, hpq, hqname]⟩
    · exact ⟨q, (List.getElem?_set_ne (Ne.symm hba)).trans hq, hqname⟩

/-- A proxy is changed, and X-Plane does not notice. -/
theorem set_silent (h : RegistryInvariant r) (hp : r.proxies[a]? = some p)
    (hconsistent : p'.Consistent) (hname : p'.datarefName = p.datarefName)
    (haccessor : p'.accessor = p.accessor) : RegistryInvariant (r.set a p') :=
  h.set hp hconsistent hname (by rw [haccessor])

end RegistryInvariant

/-! ### The operations -/

namespace DataproxyRegistry

variable {o : Outcomes} {r : DataproxyRegistry} {a : ℕ} {p : Dataproxy} {proxy : Option ℕ}

theorem unregisterDataAccessor_proxies (xpDataref : Option ℕ) :
    (r.unregisterDataAccessor xpDataref).proxies = r.proxies := by
  cases xpDataref with
  | none => rfl
  | some ref => rfl

theorem set_self (hp : r.proxies[a]? = some p) : r.set a p = r := by
  obtain ⟨ha, rfl⟩ := List.getElem?_eq_some_iff.1 hp
  simp [set]

theorem clear_consistent (p : Dataproxy) : ({ p with state := .inactive }).clear.Consistent :=
  ⟨rfl, rfl, rfl, rfl, rfl, rfl⟩

/-- A function on one proxy keeps the invariant if its body does. -/
theorem onProxy_kept {body : ℕ → Dataproxy → ErrorCode × DataproxyRegistry}
    (h : RegistryInvariant r) (hbody : ∀ a p, r.proxies[a]? = some p →
      Kept r ((body a p).1 ≠ .none) (body a p).2) :
    Kept r ((r.onProxy o proxy body).1 ≠ .none) (r.onProxy o proxy body).2 := by
  have hsame : ∀ err : ErrorCode, Kept r (err ≠ .none) r := fun _ => ⟨h, fun _ => rfl⟩
  unfold onProxy
  cases proxy with
  | none => exact hsame _
  | some a =>
    dsimp only
    cases hp : r.proxies[a]? with
    | none => exact hsame _
    | some p =>
      dsimp only
      split_ifs
      · exact hsame _
      · exact hbody a p hp

theorem releaseDataproxy_kept (h : RegistryInvariant r) :
    Kept r ((r.releaseDataproxy o proxy).1 ≠ .none) (r.releaseDataproxy o proxy).2 := by
  refine onProxy_kept h fun a p hp => ?_
  split_ifs with hstate
  · exact ⟨h, fun _ => rfl⟩
  · rw [Classical.not_not] at hstate
    refine ⟨h.set_silent hp (clear_consistent p) rfl ?_, fun herr => absurd rfl herr⟩
    simp [Dataproxy.accessor, Dataproxy.atXPlane, Dataproxy.clear, hstate]

theorem registerDataproxy_kept (h : RegistryInvariant r) :
    Kept r ((r.registerDataproxy o proxy).1 ≠ .none) (r.registerDataproxy o proxy).2 := by
  refine onProxy_kept h fun a p hp => ?_
  split_ifs with hstate
  · exact ⟨h, fun _ => rfl⟩
  · rw [Classical.not_not] at hstate
    have hp' := h.consistent a p hp
    simp only [Dataproxy.Consistent, hstate] at hp'
    obtain ⟨howner, hoperations, hdataref⟩ := hp'
    cases o.registerDataAccessor with
    | none =>
      -- the proxy had no dataref before
      have hsame : r.set a { p with xpDataref := none } = r := by
        rw [← hdataref]
        exact set_self hp
      exact ⟨hsame.symm ▸ h, fun _ => hsame⟩
    | some ref =>
      have hconsistent : { p with xpDataref := some ref, state := .registered }.Consistent :=
        ⟨howner, hoperations, rfl⟩
      refine ⟨h.set hp hconsistent rfl ?_, fun herr => absurd rfl herr⟩
      have hadd : ref ::ₘ r.accessors = r.accessors + {ref} := by
        rw [add_comm, Multiset.singleton_add]
      simpa [Dataproxy.accessor, Dataproxy.atXPlane, hstate] using hadd

/-- The accessor of a proxy is unregistered, and the proxy changed accordingly. -/
theorem unregistered (h : RegistryInvariant r) (hp : r.proxies[a]? = some p)
    (hatXPlane : p.atXPlane = true) {p' : Dataproxy} (hconsistent : p'.Consistent)
    (hname : p'.datarefName = p.datarefName) (haccessor : p'.accessor = none) :
    RegistryInvariant ((r.unregisterDataAccessor p.xpDataref).set a p') := by
  have hp' := h.consistent a p hp
  obtain ⟨ref, href⟩ : ∃ ref, p.xpDataref = some ref := by
    unfold Dataproxy.Consistent at hp'
    unfold Dataproxy.atXPlane at hatXPlane
    cases hstate : p.state with
    | inactive => simp [hstate] at hatXPlane
    | reserved => simp [hstate] at hatXPlane
    | registered => exact Option.isSome_iff_exists.1 (by simp [hstate] at hp'; exact hp'.2.2)
    | dropped => exact Option.isSome_iff_exists.1 (by simp [hstate] at hp'; exact hp'.2.2.2)
  have hself : p.accessor = some ref := by simp [Dataproxy.accessor, hatXPlane, href]
  have hmem : ref ∈ r.accessors := by
    rw [h.accessors, registeredDatarefs, Multiset.mem_coe, List.mem_filterMap]
    exact ⟨p, List.mem_of_getElem? hp, hself⟩
  rw [href]
  refine h.set hp hconsistent hname ?_
  rw [hself, haccessor]
  change r.accessors.erase ref + {ref} = r.accessors + 0
  rw [add_comm, Multiset.singleton_add, Multiset.cons_erase hmem, add_zero]

theorem unregisterDataproxy_kept (h : RegistryInvariant r) :
    Kept r ((r.unregisterDataproxy o proxy).1 ≠ .none) (r.unregisterDataproxy o proxy).2 := by
  refine onProxy_kept h fun a p hp => ?_
  cases hstate : p.state with
  | inactive => exact ⟨h, fun _ => rfl⟩
  | reserved => exact ⟨h, fun _ => rfl⟩
  | registered =>
    have hp' := h.consistent a p hp
    simp only [Dataproxy.Consistent, hstate] at hp'
    have hconsistent : { p with state := .reserved, xpDataref := none }.Consistent :=
      ⟨hp'.1, hp'.2.1, rfl⟩
    have hatXPlane : p.atXPlane = true := by simp [Dataproxy.atXPlane, hstate]
    exact ⟨unregistered h hp hatXPlane hconsistent rfl rfl, fun herr => absurd rfl herr⟩
  | dropped =>
    have hatXPlane : p.atXPlane = true := by simp [Dataproxy.atXPlane, hstate]
    exact ⟨unregistered h hp hatXPlane (clear_consistent p) rfl rfl, fun herr => absurd rfl herr⟩

theorem dropDataproxy_kept (h : RegistryInvariant r) :
    Kept r ((r.dropDataproxy o proxy).1 ≠ .none) (r.dropDataproxy o proxy).2 := by
  refine onProxy_kept h fun a p hp => ?_
  split_ifs with hstate
  · exact ⟨h, fun _ => rfl⟩
  · rw [Classical.not_not] at hstate
    have hp' := h.consistent a p hp
    simp only [Dataproxy.Consistent, hstate] at hp'
    refine ⟨h.set_silent hp ?_ rfl ?_, fun herr => absurd rfl herr⟩
    · exact ⟨rfl, rfl, rfl, hp'.2.2⟩
    · simp [Dataproxy.accessor, Dataproxy.atXPlane, hstate]

/-! ### Reservations -/

theorem addDataproxy_invariant {name : List UInt8} {r' : DataproxyRegistry}
    (h : RegistryInvariant r) (hnone : r.byDatarefName.get name = none)
    (hadd : r.addDataproxy o name = some (a, r')) :
    RegistryInvariant r' ∧ r'.proxies[a]? = some (.create (cString name)) := by
  unfold addDataproxy at hadd
  split_ifs at hadd
  simp only [Option.some.injEq, Prod.mk.injEq] at hadd
  obtain ⟨rfl, rfl⟩ := hadd
  have hnew : (r.proxies ++ [.create (cString name)])[r.proxies.length]? =
      some (.create (cString name)) := by simp
  have hget : ∀ b q, (r.proxies ++ [.create (cString name)])[b]? = some q →
      r.proxies[b]? = some q ∨ (b = r.proxies.length ∧ q = .create (cString name)) := by
    intro b q hq
    by_cases hb : b < r.proxies.length
    · rw [List.getElem?_append_left hb] at hq
      exact .inl hq
    · obtain ⟨hb', -⟩ := List.getElem?_eq_some_iff.1 hq
      rw [List.length_append, List.length_singleton] at hb'
      obtain rfl : b = r.proxies.length := by omega
      exact .inr ⟨rfl, Option.some.inj (hq.symm.trans hnew)⟩
  refine ⟨⟨fun b q hq => ?_, ?_, fun b q hq => ?_, fun key b hb => ?_⟩, hnew⟩
  · rcases hget b q hq with hq | ⟨-, rfl⟩
    · exact h.consistent b q hq
    · exact ⟨rfl, rfl, rfl, rfl, rfl, rfl⟩
  · rw [h.accessors]
    simp [registeredDatarefs, Dataproxy.accessor, Dataproxy.atXPlane, Dataproxy.create]
  · rcases hget b q hq with hq | ⟨rfl, rfl⟩
    · -- an older proxy has another name
      rw [Hashmap.get_put_of_ne]
      · exact h.named b q hq
      · intro hname
        have hget := h.named b q hq
        rw [r.byDatarefName.get_congr hname, hnone] at hget
        cases hget
    · change (r.byDatarefName.put name _).get (cString name) = _
      rw [Hashmap.get_congr _ (cString_cString name), Hashmap.get_put_self]
  · by_cases hkey : cString key = cString name
    · rw [Hashmap.get_congr _ hkey, Hashmap.get_put_self, Option.some.injEq] at hb
      subst hb
      exact ⟨_, hnew, hkey.symm⟩
    · rw [Hashmap.get_put_of_ne _ hkey] at hb
      obtain ⟨q, hq, hname⟩ := h.found key b hb
      have hb' := (List.getElem?_eq_some_iff.1 hq).1
      exact ⟨q, (List.getElem?_append_left hb').trans hq, hname⟩

theorem reserveInactive_kept {reservation : Reservation} (h : RegistryInvariant r)
    (hsession : reservation.session.isSome) (hvalid : reservation.isValid) :
    Kept r ((r.reserveInactive a reservation).1 = none) (r.reserveInactive a reservation).2 := by
  unfold reserveInactive
  cases hp : r.proxies[a]? with
  | none => exact ⟨h, fun _ => rfl⟩
  | some p =>
    dsimp only
    split_ifs with hstate
    · exact ⟨h, fun _ => rfl⟩
    · rw [Classical.not_not] at hstate
      have hp' := h.consistent a p hp
      simp only [Dataproxy.Consistent, hstate] at hp'
      simp only [Reservation.isValid, Bool.and_eq_true] at hvalid
      refine ⟨h.set_silent hp ⟨hsession, hvalid.2, hp'.2.2.2.2.2⟩ rfl ?_, nofun⟩
      simp [Dataproxy.accessor, Dataproxy.atXPlane, hstate]

theorem reserveInactive_of_inactive {reservation : Reservation} (hp : r.proxies[a]? = some p)
    (hstate : p.state = .inactive) : (r.reserveInactive a reservation).1 = some a := by
  simp [reserveInactive, hp, hstate]

theorem unregisterDataproxy_dropped (o : Outcomes) (h : RegistryInvariant r)
    (hp : r.proxies[a]? = some p) (hstate : p.state = .dropped) :
    ∃ r', r.unregisterDataproxy o.held (some a) = (.none, r') ∧ RegistryInvariant r' ∧
      r'.proxies = r.proxies.set a ({ p with state := .inactive }).clear := by
  have hatXPlane : p.atXPlane = true := by simp [Dataproxy.atXPlane, hstate]
  refine ⟨_, ?_, unregistered h hp hatXPlane (clear_consistent p) rfl rfl, ?_⟩
  · simp [unregisterDataproxy, onProxy, hp, hstate, Outcomes.held]
  · cases p.xpDataref with
    | none => rfl
    | some ref => rfl

theorem reserveAt_kept {reservation : Reservation} (h : RegistryInvariant r)
    (hsession : reservation.session.isSome) (hvalid : reservation.isValid) :
    Kept r ((r.reserveAt o a reservation).1 = none) (r.reserveAt o a reservation).2 := by
  unfold reserveAt
  split_ifs with hdropped
  · obtain ⟨p, hp, hstate⟩ := Option.map_eq_some_iff.1 hdropped
    obtain ⟨r', hrun, hr', hproxies⟩ := unregisterDataproxy_dropped o h hp hstate
    have hinactive : r'.proxies[a]? = some ({ p with state := .inactive }).clear := by
      rw [hproxies]
      exact List.getElem?_set_self (List.getElem?_eq_some_iff.1 hp).1
    simp only [hrun, ne_eq, not_true_eq_false, ↓reduceIte]
    refine ⟨(reserveInactive_kept hr' hsession hvalid).invariant, fun hnone => ?_⟩
    rw [reserveInactive_of_inactive hinactive rfl] at hnone
    cases hnone
  · exact reserveInactive_kept h hsession hvalid

theorem reserveDataproxy_kept {reservation : Reservation} (h : RegistryInvariant r) :
    Kept r ((r.reserveDataproxy o reservation).1 = none) (r.reserveDataproxy o reservation).2 := by
  have hsame : Kept r (none = (none : Option ℕ)) r := ⟨h, fun _ => rfl⟩
  unfold reserveDataproxy
  split
  · rename_i name session _ hsession
    split_ifs with hvalid
    · exact hsame
    · exact hsame
    · have hsession : reservation.session.isSome := by rw [hsession]; rfl
      have hvalid : reservation.isValid := by simpa using hvalid
      unfold findOrAddDataproxy
      cases hget : r.byDatarefName.get name with
      | some a => exact reserveAt_kept h hsession hvalid
      | none =>
        dsimp only
        cases hadd : r.addDataproxy o name with
        | none => exact hsame
        | some added =>
          obtain ⟨a, r'⟩ := added
          obtain ⟨hr', hnew⟩ := addDataproxy_invariant h hget hadd
          refine ⟨(reserveAt_kept hr' hsession hvalid).invariant, fun hnone => ?_⟩
          -- a new proxy is inactive, so that it can be reserved
          have hsome : (r'.reserveAt o a reservation).1 = some a := by
            simp only [reserveAt, hnew, Option.map_some, Dataproxy.create, Option.some.injEq,
              reduceCtorEq, ↓reduceIte]
            exact reserveInactive_of_inactive hnew rfl
          rw [hsome] at hnone
          cases hnone
  · exact hsame

theorem reserveAt_existing {reservation : Reservation} (hp : r.proxies[a]? = some p)
    (hsome : (r.reserveAt o a reservation).1.isSome) :
    p.state = .inactive ∨ p.state = .dropped := by
  unfold reserveAt at hsome
  split_ifs at hsome with hdropped
  · right
    simpa [hp] using hdropped
  · left
    by_contra hstate
    simp [reserveInactive, hp, hstate] at hsome

theorem reserveDataproxy_existing {reservation : Reservation} (h : RegistryInvariant r)
    (hp : r.proxies[a]? = some p)
    (hname : reservation.datarefName.map cString = some p.datarefName)
    (hsome : (r.reserveDataproxy o reservation).1.isSome) :
    p.state = .inactive ∨ p.state = .dropped := by
  obtain ⟨name, hreservation, hname⟩ := Option.map_eq_some_iff.1 hname
  have hget : r.byDatarefName.get name = some a := by
    rw [← h.named a p hp, ← hname]
    exact (r.byDatarefName.get_congr (cString_cString name)).symm
  unfold reserveDataproxy at hsome
  rw [hreservation] at hsome
  cases hsession : reservation.session with
  | none => simp [hsession] at hsome
  | some session =>
    simp only [hsession, findOrAddDataproxy, hget] at hsome
    split_ifs at hsome
    · cases hsome
    · cases hsome
    · exact reserveAt_existing hp hsome

/-! ### Maintenance -/

/-- The proxies that are dropped. -/
def Dropped (r : DataproxyRegistry) (a : ℕ) : Prop :=
  r.proxies[a]?.map Dataproxy.state = some .dropped

instance (r : DataproxyRegistry) (a : ℕ) : Decidable (r.Dropped a) :=
  inferInstanceAs (Decidable (_ = _))

/-- The maintenance loop keeps the invariant and reports no error, and what is still dropped after
it was so before and was not in the list. -/
theorem unregisterLoop_spec (list : List ℕ) (outErr : ErrorCode) (h : RegistryInvariant r) :
    (unregisterLoop o list outErr r).1 = outErr ∧
      RegistryInvariant (unregisterLoop o list outErr r).2 ∧
      ∀ b, (unregisterLoop o list outErr r).2.Dropped b → r.Dropped b ∧ b ∉ list := by
  induction list generalizing r with
  | nil => exact ⟨rfl, h, fun b hb => ⟨hb, List.not_mem_nil⟩⟩
  | cons a list ih =>
    unfold unregisterLoop
    split_ifs with hdropped
    · obtain ⟨p, hp, hstate⟩ := Option.map_eq_some_iff.1 hdropped
      obtain ⟨r', hrun, hr', hproxies⟩ := unregisterDataproxy_dropped o h hp hstate
      simp only [hrun, ne_eq, not_true_eq_false, ↓reduceIte]
      obtain ⟨herr, hinvariant, hafter⟩ := ih hr'
      refine ⟨herr, hinvariant, fun b hb => ?_⟩
      obtain ⟨hb, hlist⟩ := hafter b hb
      have ha := (List.getElem?_eq_some_iff.1 hp).1
      by_cases hba : b = a
      · -- the proxy has just been cleared
        subst hba
        rw [Dropped, hproxies, List.getElem?_set_self ha] at hb
        cases hb
      · rw [Dropped, hproxies, List.getElem?_set_ne (Ne.symm hba)] at hb
        exact ⟨hb, by simp [hba, hlist]⟩
    · obtain ⟨herr, hinvariant, hafter⟩ := ih h
      refine ⟨herr, hinvariant, fun b hb => ?_⟩
      obtain ⟨hb, hlist⟩ := hafter b hb
      have hba : b ≠ a := by
        rintro rfl
        exact hdropped hb
      exact ⟨hb, by simp [hba, hlist]⟩

theorem unregisterDropped_kept (h : RegistryInvariant r) :
    Kept r ((r.unregisterDroppedDataproxies o).1 ≠ .none) (r.unregisterDroppedDataproxies o).2 := by
  unfold unregisterDroppedDataproxies
  split_ifs
  · exact ⟨h, fun _ => rfl⟩
  · cases r.listDataproxiesWithState o.held .dropped with
    | none => exact ⟨h, fun _ => rfl⟩
    | some list =>
      obtain ⟨herr, hinvariant, -⟩ := unregisterLoop_spec (o := o) list .none h
      exact ⟨hinvariant, fun hne => absurd herr hne⟩

theorem not_dropped_of_unregisterDropped (h : RegistryInvariant r)
    (hnone : (r.unregisterDroppedDataproxies o).1 = .none) (b : ℕ) :
    ¬ (r.unregisterDroppedDataproxies o).2.Dropped b := by
  unfold unregisterDroppedDataproxies at hnone ⊢
  split_ifs at hnone ⊢ with hlock
  · exact absurd hnone hlock
  · cases hlist : r.listDataproxiesWithState o.held .dropped with
    | none => simp [hlist] at hnone
    | some list =>
      intro hb
      obtain ⟨-, -, hafter⟩ := unregisterLoop_spec (o := o) list .none h
      obtain ⟨hbefore, hnotin⟩ := hafter b hb
      -- a proxy is in the map under its name, so it was listed
      obtain ⟨p, hp, -⟩ := Option.map_eq_some_iff.1 hbefore
      simp only [listDataproxiesWithState] at hlist
      split_ifs at hlist
      simp only [Option.some.injEq] at hlist
      refine hnotin (hlist ▸ List.mem_filter.2 ⟨Hashmap.mem_toList (h.named b p hp), ?_⟩)
      simpa [Dropped] using hbefore

end DataproxyRegistry

/-! ### Whole runs -/

namespace DataproxyCall

theorem exec_kept (call : DataproxyCall) (o : Outcomes) {r : DataproxyRegistry}
    (h : RegistryInvariant r) : Kept r ((call.exec o r).1 = true) (call.exec o r).2 := by
  cases call with
  | reserve reservation => simpa [exec] using DataproxyRegistry.reserveDataproxy_kept h
  | register proxy => simpa [exec] using DataproxyRegistry.registerDataproxy_kept h
  | unregister proxy => simpa [exec] using DataproxyRegistry.unregisterDataproxy_kept h
  | release proxy => simpa [exec] using DataproxyRegistry.releaseDataproxy_kept h
  | drop proxy => simpa [exec] using DataproxyRegistry.dropDataproxy_kept h
  | unregisterDropped => simpa [exec] using DataproxyRegistry.unregisterDropped_kept h

theorem run_invariant (calls : List (Outcomes × DataproxyCall)) : RegistryInvariant
    (run calls) := by
  have hrun : ∀ r, RegistryInvariant r →
      RegistryInvariant (calls.foldl (fun r call => (call.2.exec call.1 r).2) r) := by
    induction calls with
    | nil => exact fun r hr => hr
    | cons call calls ih => exact fun r hr => ih _ (call.2.exec_kept call.1 hr).invariant
  exact hrun _ .create

end DataproxyCall

/-- **The life-cycle of data proxies.**  After any sequence of operations on a registry, whatever
the lock, the allocations and X-Plane return: (1) the fields of every proxy fit its state; (2)
X-Plane has exactly the accessors of the registered and dropped proxies; (3) a name that has a proxy
can be reserved only if the proxy is inactive or dropped; (4) an operation that fails leaves every
proxy as it was; (5) after a successful maintenance call no proxy is dropped. -/
theorem dataproxy_lifecycle (calls : List (Outcomes × DataproxyCall)) :
    let r := DataproxyCall.run calls
    (∀ p ∈ r.proxies, p.Consistent) ∧
    r.accessors = r.registeredDatarefs ∧
    (∀ p ∈ r.proxies, ∀ o reservation, reservation.datarefName.map cString = some p.datarefName →
      (r.reserveDataproxy o reservation).1.isSome → p.state = .inactive ∨ p.state = .dropped) ∧
    (∀ o (call : DataproxyCall), (call.exec o r).1 = true → (call.exec o r).2.proxies = r.proxies) ∧
    (∀ o, (r.unregisterDroppedDataproxies o).1 = .none →
      ∀ p ∈ (r.unregisterDroppedDataproxies o).2.proxies, p.state ≠ .dropped) := by
  intro r
  have hr : RegistryInvariant r := DataproxyCall.run_invariant calls
  refine ⟨fun p hp => ?_, hr.accessors, fun p hp o reservation hname hsome => ?_,
    fun o call hfailed => ?_, fun o hnone p hp hdropped => ?_⟩
  · obtain ⟨a, hp⟩ := List.getElem?_of_mem hp
    exact hr.consistent a p hp
  · obtain ⟨a, hp⟩ := List.getElem?_of_mem hp
    exact DataproxyRegistry.reserveDataproxy_existing hr hp hname hsome
  · rw [(call.exec_kept o hr).unchanged hfailed]
  · obtain ⟨a, hp⟩ := List.getElem?_of_mem hp
    refine DataproxyRegistry.not_dropped_of_unregisterDropped hr hnone a ?_
    rw [DataproxyRegistry.Dropped, hp, Option.map_some, hdropped]

end XprcServer
