import XprcServer.Dataproxy.Lifecycle

/-!
# Who holds a data proxy

A proxy that is reserved or registered is held by the owner whose reference it has.  An owner works
on the proxies it holds only, and other owners do not have its reference (`DataproxyCall.Foreign`).

* `exec_spares` : what other owners do gives an owner no proxy, and takes none away from it while it
  is registered;
* `reserveDataproxy_held`, `reserveDataproxy_result` : a reservation gives its owner one proxy;
* `reserveDataproxy_refused` : it is refused only while somebody holds the proxy of the name.
-/

namespace XprcServer

/-- The proxy is reserved or registered for the owner with this reference. -/
def Dataproxy.HeldBy (p : Dataproxy) (ref : ℕ) : Prop :=
  p.operationsRef = some ref ∧ (p.state = .reserved ∨ p.state = .registered)

/-- Between `r` and `r'` the owner with the reference `ref` got no proxy, and its proxy `own` was
left alone if it was registered. -/
structure Spares (ref : ℕ) (own : Option ℕ) (r r' : DataproxyRegistry) : Prop where
  held : ∀ (b : ℕ) p', r'.proxies[b]? = some p' → p'.HeldBy ref →
    ∃ p, r.proxies[b]? = some p ∧ p.HeldBy ref
  own : ∀ (a : ℕ) p, own = some a → r.proxies[a]? = some p → p.state = .registered →
    r'.proxies[a]? = some p

/-- Operations that other owners perform. -/
def DataproxyCall.Foreign (ref : ℕ) (own : Option ℕ) : DataproxyCall → Prop
  | reserve reservation => reservation.operationsRef ≠ some ref
  | register proxy => ∀ a, own = some a → proxy ≠ some a
  | unregister proxy => ∀ a, own = some a → proxy ≠ some a
  | release proxy => ∀ a, own = some a → proxy ≠ some a
  | drop proxy => ∀ a, own = some a → proxy ≠ some a
  | unregisterDropped => True

namespace Spares

variable {ref : ℕ} {own : Option ℕ} {r r' r'' : DataproxyRegistry} {b : ℕ} {p p' : Dataproxy}

theorem of_proxies (h : r'.proxies = r.proxies) : Spares ref own r r' :=
  ⟨fun _ p' hp' hheld => ⟨p', by rw [← h]; exact hp', hheld⟩, fun _ p _ hp _ => by rw [h]; exact hp⟩

theorem refl : Spares ref own r r := of_proxies rfl

theorem trans (h : Spares ref own r r') (h' : Spares ref own r' r'') : Spares ref own r r'' where
  held b p'' hp'' hheld := by
    obtain ⟨p', hp', hheld'⟩ := h'.held b p'' hp'' hheld
    exact h.held b p' hp' hheld'
  own a p hown hp hstate := h'.own a p hown (h.own a p hown hp hstate) hstate

theorem set (hp : r.proxies[b]? = some p) (hset : r'.proxies = r.proxies.set b p')
    (hheld : p'.HeldBy ref → p.HeldBy ref) (hown : own = some b → p.state ≠ .registered) :
    Spares ref own r r' := by
  have hb : b < r.proxies.length := (List.getElem?_eq_some_iff.1 hp).1
  refine ⟨fun c q' hq' hq => ?_, fun a q ha hq hstate => ?_⟩
  · rw [hset] at hq'
    by_cases hc : c = b
    · subst hc
      rw [List.getElem?_set_self hb, Option.some.injEq] at hq'
      exact ⟨p, hp, hheld (hq' ▸ hq)⟩
    · rw [List.getElem?_set_ne (Ne.symm hc)] at hq'
      exact ⟨q', hq', hq⟩
  · have hne : a ≠ b := by
      rintro rfl
      rw [hp, Option.some.injEq] at hq
      exact hown ha (hq ▸ hstate)
    rw [hset, List.getElem?_set_ne (Ne.symm hne)]
    exact hq

end Spares

namespace DataproxyRegistry

variable {ref : ℕ} {own : Option ℕ} {r r' : DataproxyRegistry} {a : ℕ}
  {p : Dataproxy} {o : Outcomes} {proxy : Option ℕ} {reservation : Reservation}

theorem onProxy_spares {body : ℕ → Dataproxy → ErrorCode × DataproxyRegistry}
    (hforeign : ∀ a, own = some a → proxy ≠ some a)
    (hbody : ∀ a p, r.proxies[a]? = some p → own ≠ some a → Spares ref own r (body a p).2) :
    Spares ref own r (r.onProxy o proxy body).2 := by
  unfold onProxy
  cases proxy with
  | none => exact .refl
  | some a =>
    cases hp : r.proxies[a]? with
    | none =>
      simp only [hp]
      exact .refl
    | some p =>
      simp only [hp]
      split_ifs
      · exact .refl
      · exact hbody a p hp fun hown => hforeign a hown rfl

theorem registerDataproxy_spares (hforeign : ∀ a, own = some a → proxy ≠ some a) :
    Spares ref own r (r.registerDataproxy o proxy).2 := by
  refine onProxy_spares hforeign fun a p hp hown => ?_
  split_ifs with hstate
  · exact .refl
  · rw [Classical.not_not] at hstate
    cases o.registerDataAccessor with
    | none => exact .set hp rfl (fun h => h) fun h => absurd h hown
    | some xpDataref => exact .set hp rfl (fun h => ⟨h.1, .inl hstate⟩) fun h => absurd h hown

theorem unregisterDataproxy_spares (hforeign : ∀ a, own = some a → proxy ≠ some a) :
    Spares ref own r (r.unregisterDataproxy o proxy).2 := by
  refine onProxy_spares hforeign fun a p hp hown => ?_
  have hset : ∀ p', ((r.unregisterDataAccessor p.xpDataref).set a p').proxies =
      r.proxies.set a p' := by
    intro p'
    rw [DataproxyRegistry.set, unregisterDataAccessor_proxies]
  cases hstate : p.state with
  | inactive => exact .refl
  | reserved => exact .refl
  | registered =>
    exact .set hp (hset _) (fun h => ⟨h.1, .inr hstate⟩) fun h => absurd h hown
  | dropped => exact .set hp (hset _) (fun h => by cases h.1) fun h => absurd h hown

theorem releaseDataproxy_spares (hforeign : ∀ a, own = some a → proxy ≠ some a) :
    Spares ref own r (r.releaseDataproxy o proxy).2 := by
  refine onProxy_spares hforeign fun a p hp hown => ?_
  split_ifs
  · exact .refl
  · exact .set hp rfl (fun h => by cases h.1) fun h => absurd h hown

theorem dropDataproxy_spares (hforeign : ∀ a, own = some a → proxy ≠ some a) :
    Spares ref own r (r.dropDataproxy o proxy).2 := by
  refine onProxy_spares hforeign fun a p hp hown => ?_
  split_ifs
  · exact .refl
  · exact .set hp rfl (fun h => by cases h.1) fun h => absurd h hown

/-- A dropped proxy belongs to nobody, so that its deregistration concerns nobody. -/
theorem unregisterDataproxy_spares_of_dropped (hp : r.proxies[a]? = some p)
    (hstate : p.state = .dropped) :
    Spares ref own r (r.unregisterDataproxy o.held (some a)).2 := by
  have hrun : (r.unregisterDataproxy o.held (some a)).2.proxies =
      r.proxies.set a ({ p with state := .inactive }).clear := by
    simp [unregisterDataproxy, onProxy, hp, hstate, Outcomes.held, DataproxyRegistry.set,
      unregisterDataAccessor_proxies]
  exact .set hp hrun (fun h => by cases h.1) fun _ hr => by rw [hstate] at hr; cases hr

theorem unregisterLoop_spares (list : List ℕ) (outErr : ErrorCode) (r : DataproxyRegistry) :
    Spares ref own r (unregisterLoop o list outErr r).2 := by
  induction list generalizing outErr r with
  | nil => exact .refl
  | cons a list ih =>
    unfold unregisterLoop
    split_ifs with hdropped
    · obtain ⟨p, hp, hstate⟩ := Option.map_eq_some_iff.1 hdropped
      exact (unregisterDataproxy_spares_of_dropped hp hstate).trans (ih _ _)
    · exact ih _ _

theorem unregisterDropped_spares : Spares ref own r (r.unregisterDroppedDataproxies o).2 := by
  unfold unregisterDroppedDataproxies
  split_ifs
  · exact .refl
  · cases r.listDataproxiesWithState o.held .dropped with
    | none => exact .refl
    | some list => exact unregisterLoop_spares list _ r

/-! ### Reservations -/

/-- What a reservation does to the proxies: those of other owners stay as they are, and the one that
is returned is reserved for the new owner. -/
structure Reserves (ref : ℕ) (own : Option ℕ) (r : DataproxyRegistry) (reservation : Reservation)
    (result : Option ℕ × DataproxyRegistry) : Prop where
  held : ∀ (b : ℕ) p', result.2.proxies[b]? = some p' → p'.HeldBy ref →
    result.1 = some b ∨ ∃ p, r.proxies[b]? = some p ∧ p.HeldBy ref
  own : ∀ (a : ℕ) p, own = some a → r.proxies[a]? = some p → p.state = .registered →
    result.2.proxies[a]? = some p
  result : ∀ a, result.1 = some a → ∃ p, result.2.proxies[a]? = some p ∧ p.state = .reserved ∧
    p.operationsRef = reservation.operationsRef

theorem Reserves.refused (h : Spares ref own r r') : Reserves ref own r reservation (none, r') :=
  ⟨fun b p' hp' hheld => .inr (h.held b p' hp' hheld), h.own, fun _ h => nomatch h⟩

theorem Reserves.after {result : Option ℕ × DataproxyRegistry} (h : Spares ref own r r')
    (hres : Reserves ref own r' reservation result) : Reserves ref own r reservation result where
  held b p' hp' hheld := by
    rcases hres.held b p' hp' hheld with h' | ⟨p, hp, hheld⟩
    · exact .inl h'
    · exact .inr (h.held b p hp hheld)
  own a p hown hp hstate := hres.own a p hown (h.own a p hown hp hstate) hstate
  result := hres.result

theorem reserveInactive_reserves :
    Reserves ref own r reservation (r.reserveInactive a reservation) := by
  unfold reserveInactive
  cases hp : r.proxies[a]? with
  | none => exact .refused .refl
  | some p =>
    dsimp only
    split_ifs with hstate
    · exact .refused .refl
    · rw [Classical.not_not] at hstate
      have ha : a < r.proxies.length := (List.getElem?_eq_some_iff.1 hp).1
      refine ⟨fun b p' hp' hheld => ?_, fun b q hown hq hreg => ?_, ?_⟩
      · by_cases hb : b = a
        · exact .inl (by rw [hb])
        · simp only [DataproxyRegistry.set, List.getElem?_set_ne (Ne.symm hb)] at hp'
          exact .inr ⟨p', hp', hheld⟩
      · have hne : b ≠ a := by
          rintro rfl
          rw [hp, Option.some.injEq] at hq
          rw [← hq, hstate] at hreg
          cases hreg
        simp only [DataproxyRegistry.set, List.getElem?_set_ne (Ne.symm hne)]
        exact hq
      · rintro _ ⟨⟩
        exact ⟨_, List.getElem?_set_self ha, rfl, rfl⟩

theorem reserveAt_reserves : Reserves ref own r reservation (r.reserveAt o a reservation) := by
  unfold reserveAt
  split_ifs with hdropped
  · obtain ⟨p, hp, hstate⟩ := Option.map_eq_some_iff.1 hdropped
    have hspares : Spares ref own r (r.unregisterDataproxy o.held (some a)).2 :=
      unregisterDataproxy_spares_of_dropped hp hstate
    dsimp only
    split_ifs
    · exact .refused hspares
    · exact .after hspares reserveInactive_reserves
  · exact reserveInactive_reserves

theorem addDataproxy_spares {name : List UInt8} (h : r.addDataproxy o name = some (a, r')) :
    Spares ref own r r' := by
  unfold addDataproxy at h
  split_ifs at h
  cases h
  refine ⟨fun b p' hp' hheld => ?_, fun b p _ hp _ => ?_⟩
  · rcases Nat.lt_trichotomy b r.proxies.length with hb | hb | hb
    · rw [List.getElem?_append_left hb] at hp'
      exact ⟨p', hp', hheld⟩
    · -- the proxy that is added is inactive
      subst hb
      rw [List.getElem?_append_right (Nat.le_refl _), Nat.sub_self] at hp'
      cases hp'
      cases hheld.1
    · rw [List.getElem?_eq_none (by simp; omega)] at hp'
      cases hp'
  · have hb := (List.getElem?_eq_some_iff.1 hp).1
    exact (List.getElem?_append_left hb).trans hp

theorem reserveDataproxy_reserves :
    Reserves ref own r reservation (r.reserveDataproxy o reservation) := by
  unfold reserveDataproxy
  split
  · rename_i name _ _ _
    split_ifs
    · exact .refused .refl
    · exact .refused .refl
    · unfold findOrAddDataproxy
      cases r.byDatarefName.get name with
      | some a => exact reserveAt_reserves
      | none =>
        dsimp only
        cases hadd : r.addDataproxy o name with
        | none => exact .refused .refl
        | some added => exact .after (addDataproxy_spares hadd) reserveAt_reserves
  · exact .refused .refl

/-- With usable arguments, the registry locked and memory available, a reservation is refused only
because somebody holds the proxy of the name. -/
theorem reserveDataproxy_refused {name : List UInt8} {session : ℕ} (h : RegistryInvariant r)
    (hname : reservation.datarefName = some name) (hsession : reservation.session = some session)
    (hvalid : reservation.isValid) (hlock : o.lock = .none) (halloc : ∀ n, o.alloc n = true)
    (hrefused : (r.reserveDataproxy o reservation).1 = none) :
    ∃ a p, r.byDatarefName.get name = some a ∧ r.proxies[a]? = some p ∧
      (p.state = .reserved ∨ p.state = .registered) := by
  simp only [reserveDataproxy, hname, hsession, hvalid, hlock, Bool.not_true, Bool.false_eq_true,
    ↓reduceIte, ne_eq, not_true_eq_false, findOrAddDataproxy] at hrefused
  cases hget : r.byDatarefName.get name with
  | some a =>
    obtain ⟨p, hp, -⟩ := h.found name a hget
    refine ⟨a, p, rfl, hp, ?_⟩
    simp only [hget] at hrefused
    -- an inactive proxy is reserved, a dropped one after its deregistration
    cases hstate : p.state with
    | reserved => exact .inl rfl
    | registered => exact .inr rfl
    | inactive =>
      simp only [reserveAt, hp, Option.map_some, hstate, Option.some.injEq, reduceCtorEq,
        ↓reduceIte] at hrefused
      rw [reserveInactive_of_inactive hp hstate] at hrefused
      cases hrefused
    | dropped =>
      obtain ⟨r', hrun, -, hproxies⟩ := unregisterDataproxy_dropped o h hp hstate
      have hinactive : r'.proxies[a]? = some ({ p with state := .inactive }).clear := by
        rw [hproxies]
        exact List.getElem?_set_self (List.getElem?_eq_some_iff.1 hp).1
      simp only [reserveAt, hp, Option.map_some, hstate, ↓reduceIte, hrun, ne_eq,
        not_true_eq_false] at hrefused
      rw [reserveInactive_of_inactive hinactive rfl] at hrefused
      cases hrefused
  | none =>
    cases hadd : r.addDataproxy o name with
    | none => simp [addDataproxy, halloc] at hadd
    | some added =>
      obtain ⟨a, r'⟩ := added
      obtain ⟨-, hnew⟩ := addDataproxy_invariant h hget hadd
      simp only [hget, hadd, reserveAt, hnew, Option.map_some, Dataproxy.create, Option.some.injEq,
        reduceCtorEq, ↓reduceIte] at hrefused
      rw [reserveInactive_of_inactive hnew rfl] at hrefused
      cases hrefused

end DataproxyRegistry

theorem DataproxyCall.exec_spares {ref : ℕ} {own : Option ℕ} {r : DataproxyRegistry}
    {call : DataproxyCall} (o : Outcomes) (h : call.Foreign ref own) :
    Spares ref own r (call.exec o r).2 := by
  cases call with
  | reserve reservation =>
    have hres : DataproxyRegistry.Reserves ref own r reservation
      (r.reserveDataproxy o reservation) := DataproxyRegistry.reserveDataproxy_reserves
    refine ⟨fun b p' hp' hheld => ?_, hres.own⟩
    rcases hres.held b p' hp' hheld with hb | hold
    · -- the proxy that was just reserved has another reference
      obtain ⟨p, hp, -, href⟩ := hres.result b hb
      obtain rfl : p' = p := Option.some.inj (hp'.symm.trans hp)
      exact absurd (href ▸ hheld.1) h
    · exact hold
  | register proxy => simpa [exec] using DataproxyRegistry.registerDataproxy_spares h
  | unregister proxy => simpa [exec] using DataproxyRegistry.unregisterDataproxy_spares h
  | release proxy => simpa [exec] using DataproxyRegistry.releaseDataproxy_spares h
  | drop proxy => simpa [exec] using DataproxyRegistry.dropDataproxy_spares h
  | unregisterDropped => simpa [exec] using DataproxyRegistry.unregisterDropped_spares

/-! ### Where the owners come from -/

/-- The proxy is reserved or registered. -/
def Dataproxy.Held (p : Dataproxy) : Prop := p.state = .reserved ∨ p.state = .registered

/-- Whoever holds a proxy in `r'` has held it in `r`, or has just reserved it. -/
def Descends (reserved : Option DataproxyRegistry.Reservation) (r r' : DataproxyRegistry) : Prop :=
  ∀ (b : ℕ) p', r'.proxies[b]? = some p' → p'.Held →
    (∃ p, r.proxies[b]? = some p ∧ p.Held ∧ p'.operationsRef = p.operationsRef ∧
      p'.ownerSession = p.ownerSession) ∨
    ∃ reservation, reserved = some reservation ∧ p'.operationsRef = reservation.operationsRef ∧
      p'.ownerSession = reservation.session

namespace Descends

variable {reserved : Option DataproxyRegistry.Reservation} {r r' r'' : DataproxyRegistry} {b : ℕ}
  {p p' : Dataproxy}

theorem of_proxies (h : r'.proxies = r.proxies) : Descends reserved r r' :=
  fun _ p' hp' hheld => .inl ⟨p', by rw [← h]; exact hp', hheld, rfl, rfl⟩

theorem refl : Descends reserved r r := of_proxies rfl

theorem trans (h : Descends reserved r r') (h' : Descends reserved r' r'') :
    Descends reserved r r'' := by
  intro b p'' hp'' hheld
  rcases h' b p'' hp'' hheld with ⟨p', hp', hheld', href, howner⟩ | hnew
  · rcases h b p' hp' hheld' with ⟨p, hp, hheld₀, href₀, howner₀⟩ | ⟨reservation,
      hres, href₀, howner₀⟩
    · exact .inl ⟨p, hp, hheld₀, href.trans href₀, howner.trans howner₀⟩
    · exact .inr ⟨reservation, hres, href.trans href₀, howner.trans howner₀⟩
  · exact .inr hnew

/-- One proxy was changed. -/
theorem set (hp : r.proxies[b]? = some p) (hset : r'.proxies = r.proxies.set b p')
    (h : p'.Held → (p.Held ∧ p'.operationsRef = p.operationsRef ∧
      p'.ownerSession = p.ownerSession) ∨
      ∃ reservation, reserved = some reservation ∧ p'.operationsRef = reservation.operationsRef ∧
        p'.ownerSession = reservation.session) : Descends reserved r r' := by
  have hb : b < r.proxies.length := (List.getElem?_eq_some_iff.1 hp).1
  intro c q' hq' hheld
  rw [hset] at hq'
  by_cases hc : c = b
  · subst hc
    rw [List.getElem?_set_self hb, Option.some.injEq] at hq'
    subst hq'
    exact (h hheld).imp_left fun hold => ⟨p, hp, hold⟩
  · rw [List.getElem?_set_ne (Ne.symm hc)] at hq'
    exact .inl ⟨q', hq', hheld, rfl, rfl⟩

end Descends

namespace DataproxyRegistry

variable {reserved : Option Reservation} {r r' : DataproxyRegistry} {a : ℕ} {p : Dataproxy}
  {o : Outcomes} {proxy : Option ℕ} {reservation : Reservation}

theorem onProxy_descends {body : ℕ → Dataproxy → ErrorCode × DataproxyRegistry}
    (hbody : ∀ a p, r.proxies[a]? = some p → Descends reserved r (body a p).2) :
    Descends reserved r (r.onProxy o proxy body).2 := by
  unfold onProxy
  cases proxy with
  | none => exact .refl
  | some a =>
    cases hp : r.proxies[a]? with
    | none =>
      simp only [hp]
      exact .refl
    | some p =>
      simp only [hp]
      split_ifs
      · exact .refl
      · exact hbody a p hp

theorem registerDataproxy_descends : Descends reserved r (r.registerDataproxy o proxy).2 := by
  refine onProxy_descends fun a p hp => ?_
  split_ifs with hstate
  · exact .refl
  · rw [Classical.not_not] at hstate
    cases o.registerDataAccessor with
    | none => exact .set hp rfl fun _ => .inl ⟨.inl hstate, rfl, rfl⟩
    | some xpDataref => exact .set hp rfl fun _ => .inl ⟨.inl hstate, rfl, rfl⟩

theorem unregisterDataproxy_descends : Descends reserved r (r.unregisterDataproxy o proxy).2 := by
  refine onProxy_descends fun a p hp => ?_
  have hset : ∀ p', ((r.unregisterDataAccessor p.xpDataref).set a p').proxies =
      r.proxies.set a p' := by
    intro p'
    rw [DataproxyRegistry.set, unregisterDataAccessor_proxies]
  cases hstate : p.state with
  | inactive => exact .refl
  | reserved => exact .refl
  | registered => exact .set hp (hset _) fun _ => .inl ⟨.inr hstate, rfl, rfl⟩
  | dropped => exact .set hp (hset _) fun hheld => by rcases hheld with h | h <;> cases h

theorem releaseDataproxy_descends : Descends reserved r (r.releaseDataproxy o proxy).2 := by
  refine onProxy_descends fun a p hp => ?_
  split_ifs
  · exact .refl
  · exact .set hp rfl fun hheld => by rcases hheld with h | h <;> cases h

theorem dropDataproxy_descends : Descends reserved r (r.dropDataproxy o proxy).2 := by
  refine onProxy_descends fun a p hp => ?_
  split_ifs
  · exact .refl
  · exact .set hp rfl fun hheld => by rcases hheld with h | h <;> cases h

theorem unregisterLoop_descends (list : List ℕ) (outErr : ErrorCode) (r : DataproxyRegistry) :
    Descends none r (unregisterLoop o list outErr r).2 := by
  induction list generalizing outErr r with
  | nil => exact .refl
  | cons a list ih =>
    unfold unregisterLoop
    split_ifs
    · have hfirst : Descends none r (r.unregisterDataproxy o.held (some a)).2 :=
        unregisterDataproxy_descends
      exact hfirst.trans (ih _ _)
    · exact ih _ _

theorem reserveInactive_descends :
    Descends (some reservation) r (r.reserveInactive a reservation).2 := by
  unfold reserveInactive
  cases hp : r.proxies[a]? with
  | none => exact .refl
  | some p =>
    dsimp only
    split_ifs
    · exact .refl
    · exact .set hp rfl fun _ => .inr ⟨reservation, rfl, rfl, rfl⟩

theorem reserveAt_descends :
    Descends (some reservation) r (r.reserveAt o a reservation).2 := by
  unfold reserveAt
  split_ifs
  · dsimp only
    split_ifs
    · exact unregisterDataproxy_descends
    · exact unregisterDataproxy_descends.trans reserveInactive_descends
  · exact reserveInactive_descends

theorem addDataproxy_descends {name : List UInt8} (h : r.addDataproxy o name = some (a, r')) :
    Descends reserved r r' := by
  unfold addDataproxy at h
  split_ifs at h
  cases h
  intro b p' hp' hheld
  rcases Nat.lt_trichotomy b r.proxies.length with hb | hb | hb
  · rw [List.getElem?_append_left hb] at hp'
    exact .inl ⟨p', hp', hheld, rfl, rfl⟩
  · subst hb
    rw [List.getElem?_append_right (Nat.le_refl _), Nat.sub_self] at hp'
    cases hp'
    rcases hheld with hstate | hstate <;> cases hstate
  · rw [List.getElem?_eq_none (by simp; omega)] at hp'
    cases hp'

theorem reserveDataproxy_descends :
    Descends (some reservation) r (r.reserveDataproxy o reservation).2 := by
  unfold reserveDataproxy
  split
  · rename_i name _ _ _
    split_ifs
    · exact .refl
    · exact .refl
    · unfold findOrAddDataproxy
      cases r.byDatarefName.get name with
      | some a => exact reserveAt_descends
      | none =>
        dsimp only
        cases hadd : r.addDataproxy o name with
        | none => exact .refl
        | some added => exact (addDataproxy_descends hadd).trans reserveAt_descends
  · exact .refl

end DataproxyRegistry

/-- The reservation that an operation makes, if it is one. -/
def DataproxyCall.reservation? : DataproxyCall → Option DataproxyRegistry.Reservation
  | reserve reservation => some reservation
  | _ => none

theorem DataproxyCall.exec_descends (o : Outcomes) (r : DataproxyRegistry) (call : DataproxyCall) :
    Descends call.reservation? r (call.exec o r).2 := by
  cases call with
  | reserve reservation => exact DataproxyRegistry.reserveDataproxy_descends
  | register proxy => exact DataproxyRegistry.registerDataproxy_descends
  | unregister proxy => exact DataproxyRegistry.unregisterDataproxy_descends
  | release proxy => exact DataproxyRegistry.releaseDataproxy_descends
  | drop proxy => exact DataproxyRegistry.dropDataproxy_descends
  | unregisterDropped =>
    change Descends none r (r.unregisterDroppedDataproxies o).2
    unfold DataproxyRegistry.unregisterDroppedDataproxies
    split_ifs
    · exact .refl
    · cases r.listDataproxiesWithState o.held .dropped with
      | none => exact .refl
      | some list => exact DataproxyRegistry.unregisterLoop_descends list _ r

end XprcServer
