import XprcServer.Dataproxy.Access
import XprcServer.Lib.System

/-!
# Giving up a data proxy that is being written to

The owner of a proxy drops or unregisters it while other threads access it.  All of this happens
under the lock of the registry, except that a writer copies the setter of the owner and calls it
after it has unlocked the registry.

* `no_call_after_revocation` : if no writer is on its way from the lock to the setter when the
  owner's call returns, no operation of the owner is called afterwards with the reference given up;
* `call_after_revocation` : a writer that is on its way calls the setter of an owner that is gone.
-/

namespace XprcServer

open Lib

/-- The operations an owner supplies. -/
inductive OwnerOperation where
  | simpleGet
  | simpleSet
  | arrayGet
  | arrayLength
  | arrayUpdate
  deriving DecidableEq, Repr

/-- What an owner can observe: one of its operations is called, or its call to give up the proxy has
returned.  `ref` is the reference it registered. -/
inductive AccessEvent where
  | invoked (operation : OwnerOperation) (ref : Option ℕ)
  | revoked (ref : Option ℕ)
  deriving DecidableEq, Repr

/-- The setter a write calls. -/
def Write.ownerOperation {α : Type} : Write α → OwnerOperation
  | simpleSet _ _ _ => .simpleSet
  | xpInteger _ => .simpleSet
  | xpFloat _ => .simpleSet
  | xpDouble _ => .simpleSet
  | _ => .arrayUpdate

/-- The ways to read from a proxy. -/
inductive Read where
  | simpleGet (type : BitVec 32) (dest : Bool)
  | arrayGet (type : BitVec 32) (dest numCopied : Bool) (offset count : ℤ)
  | arrayLength (type : BitVec 32) (length : Bool)

namespace Read

/-- The function that is called. -/
def exec (o : Outcomes) (r : DataproxyRegistry) (proxy : Option ℕ) :
    Read → Except ErrorCode DataproxyRegistry.GetterCall
  | simpleGet type dest => r.dataproxySimpleGet o proxy type dest
  | arrayGet type dest numCopied offset count =>
    r.dataproxyArrayGet o proxy type dest numCopied offset count
  | arrayLength type length => r.dataproxyArrayLength o proxy type length

/-- The getter it calls. -/
def ownerOperation : Read → OwnerOperation
  | simpleGet _ _ => .simpleGet
  | arrayGet _ _ _ _ _ => .arrayGet
  | arrayLength _ _ => .arrayLength

end Read

/-- How an owner gives up its proxy. -/
inductive Revocation where
  | drop
  | unregister
  deriving DecidableEq, Repr

/-- The function that is called. -/
def Revocation.exec (o : Outcomes) (r : DataproxyRegistry) (proxy : Option ℕ) :
    Revocation → ErrorCode × DataproxyRegistry
  | drop => r.dropDataproxy o proxy
  | unregister => r.unregisterDataproxy o proxy

/-! ### Interleavings -/

/-- A proxy that threads `T` access: the setters that writers have copied and not called yet, and
the reference whose owner has given up the proxy in a call that has not returned. -/
structure Accessing (T α : Type) where
  registry : DataproxyRegistry
  copied : T → Option (OwnerOperation × SetterCall α)
  returning : Option (Option ℕ)
  log : List AccessEvent

/-- Who does what. -/
inductive AccessingAct (T α : Type) where
  | write (t : T) (write : Write α)
  | call (t : T)
  | read (read : Read)
  | revoke (revocation : Revocation)
  | returns

/-- The steps of writers, readers and the owner on the proxy `a`.  A step is what a thread does
while it holds the lock of the registry, or the call of a setter, or the return of the owner's
call. -/
inductive AccessingStep {T α : Type} [DecidableEq T] (a : ℕ) :
    Accessing T α → AccessingAct T α → Accessing T α → Prop
  | write {s : Accessing T α} {t : T} {w : Write α} {o : Outcomes} {call : SetterCall α}
      (hidle : s.copied t = none) (h : w.exec o s.registry (some a) = .ok call) :
      AccessingStep a s (.write t w)
        { s with copied := Function.update s.copied t (some (w.ownerOperation, call)) }
  | call {s : Accessing T α} {t : T} {operation : OwnerOperation} {call : SetterCall α}
      (h : s.copied t = some (operation, call)) :
      AccessingStep a s (.call t)
        { s with
          copied := Function.update s.copied t none
          log := s.log ++ [.invoked operation call.operationsRef] }
  | read {s : Accessing T α} {read : Read} {o : Outcomes} {call : DataproxyRegistry.GetterCall}
      (h : read.exec o s.registry (some a) = .ok call) :
      AccessingStep a s (.read read)
        { s with log := s.log ++ [.invoked read.ownerOperation call.operationsRef] }
  | revoke {s : Accessing T α} {revocation : Revocation} {o : Outcomes} {p : Dataproxy}
      {r' : DataproxyRegistry} (hidle : s.returning = none) (hp : s.registry.proxies[a]? = some p)
      (h : revocation.exec o s.registry (some a) = (.none, r')) :
      AccessingStep a s (.revoke revocation)
        { s with registry := r', returning := some p.operationsRef }
  | returns {s : Accessing T α} {ref : Option ℕ} (h : s.returning = some ref) :
      AccessingStep a s .returns { s with returning := none, log := s.log ++ [.revoked ref] }

/-- The accesses to the proxy `a` of some registry, in any interleaving. -/
def accessingSystem (T α : Type) [DecidableEq T] (a : ℕ) :
    System (Accessing T α) (AccessingAct T α) where
  init s := ∃ calls, s = ⟨DataproxyCall.run calls, fun _ => none, none, []⟩
  next := AccessingStep a

/-- No operation is called with a reference that was given up before. -/
def NoLateCall (log : List AccessEvent) : Prop :=
  log.Pairwise fun e e' => ∀ operation ref, e = .revoked ref → e' ≠ .invoked operation ref

section

variable {T α : Type} {s s' : Accessing T α} {a : ℕ}

/-- The owner's call returns only when no writer has copied a setter with its reference and not
called it yet. -/
def NoWriterUnderWay (s : Accessing T α) : AccessingAct T α → Prop
  | .returns => ∀ t operation call, s.copied t = some (operation, call) →
      s.returning ≠ some call.operationsRef
  | _ => True

/-- The proxy is not registered. -/
def Accessing.Retired (s : Accessing T α) (a : ℕ) : Prop :=
  ∀ p, s.registry.proxies[a]? = some p → p.state ≠ .registered

/-- What holds in every run in which no writer is under way when the owner's call returns. -/
structure AccessingInvariant (a : ℕ) (s : Accessing T α) : Prop where
  retired : (s.returning ≠ none ∨ ∃ ref, .revoked ref ∈ s.log) → s.Retired a
  copied : ∀ t operation call, s.copied t = some (operation, call) →
    .revoked call.operationsRef ∉ s.log
  log : NoLateCall s.log

/-- A write copies the setter of a registered proxy only. -/
theorem Write.registered_of_exec {w : Write α} {o : Outcomes} {r : DataproxyRegistry}
    {call : SetterCall α} (h : w.exec o r (some a) = .ok call) :
    ∃ p, r.proxies[a]? = some p ∧ p.state = .registered := by
  obtain ⟨-, -, p, hlock, hcopy⟩ := Write.checked_of_exec h
  exact ⟨p, (DataproxyRegistry.lockProxy_eq_ok.1 hlock).2, (Dataproxy.copySetter_eq_ok.1 hcopy).1⟩

/-- A getter is called on a registered proxy only. -/
theorem Read.registered_of_exec {read : Read} {o : Outcomes} {r : DataproxyRegistry}
    {call : DataproxyRegistry.GetterCall} (h : read.exec o r (some a) = .ok call) :
    ∃ p, r.proxies[a]? = some p ∧ p.state = .registered := by
  have hfind : ∀ operation type, r.findGetter o (some a) operation type = .ok call →
      ∃ p, r.proxies[a]? = some p ∧ p.state = .registered := by
    intro operation type hfind
    unfold DataproxyRegistry.findGetter at hfind
    cases hlock : r.lockProxy o (some a) with
    | error err => rw [hlock] at hfind; cases hfind
    | ok p =>
      refine ⟨p, (DataproxyRegistry.lockProxy_eq_ok.1 hlock).2, ?_⟩
      by_contra hstate
      rw [hlock] at hfind
      simp [bind, Except.bind, hstate] at hfind
  cases read with
  | simpleGet type dest =>
    simp only [exec, DataproxyRegistry.dataproxySimpleGet] at h
    split_ifs at h
    exact hfind _ _ h
  | arrayGet type dest numCopied offset count =>
    simp only [exec, DataproxyRegistry.dataproxyArrayGet] at h
    split_ifs at h
    exact hfind _ _ h
  | arrayLength type length =>
    simp only [exec, DataproxyRegistry.dataproxyArrayLength] at h
    split_ifs at h
    exact hfind _ _ h

/-- A proxy that was given up is not registered any more. -/
theorem Revocation.retires {revocation : Revocation} {o : Outcomes} {r r' : DataproxyRegistry}
    (h : revocation.exec o r (some a) = (.none, r')) :
    ∀ p, r'.proxies[a]? = some p → p.state ≠ .registered := by
  intro p' hp'
  cases hp : r.proxies[a]? with
  | none => cases revocation <;>
      simp [exec, DataproxyRegistry.dropDataproxy, DataproxyRegistry.unregisterDataproxy,
        DataproxyRegistry.onProxy, hp] at h
  | some p =>
    have ha : a < r.proxies.length := (List.getElem?_eq_some_iff.1 hp).1
    by_cases hlock : o.lock = .none
    swap
    · cases revocation <;>
        simp [exec, DataproxyRegistry.dropDataproxy, DataproxyRegistry.unregisterDataproxy,
          DataproxyRegistry.onProxy, hp, hlock] at h
    cases revocation with
    | drop =>
      simp only [exec, DataproxyRegistry.dropDataproxy, DataproxyRegistry.onProxy, hp, hlock,
        ne_eq, not_true_eq_false, ↓reduceIte] at h
      split_ifs at h with hstate
      · cases h
        simp only [DataproxyRegistry.set, List.getElem?_set_self ha, Option.some.injEq] at hp'
        rw [← hp']
        simp
      · cases h
    | unregister =>
      simp only [exec, DataproxyRegistry.unregisterDataproxy, DataproxyRegistry.onProxy, hp, hlock,
        ne_eq, not_true_eq_false, ↓reduceIte] at h
      cases hstate : p.state with
      | inactive => rw [hstate] at h; cases h
      | reserved => rw [hstate] at h; cases h
      | registered =>
        rw [hstate] at h
        cases h
        simp only [DataproxyRegistry.set, DataproxyRegistry.unregisterDataAccessor_proxies,
          List.getElem?_set_self ha, Option.some.injEq] at hp'
        rw [← hp']
        simp
      | dropped =>
        rw [hstate] at h
        cases h
        simp only [DataproxyRegistry.set, DataproxyRegistry.unregisterDataAccessor_proxies,
          List.getElem?_set_self ha, Option.some.injEq] at hp'
        rw [← hp']
        simp [Dataproxy.clear]

variable [DecidableEq T]

namespace AccessingInvariant

theorem step {act : AccessingAct T α} (hs : AccessingInvariant a s)
    (hguard : NoWriterUnderWay s act) (h : AccessingStep a s act s') : AccessingInvariant a s' := by
  -- while the proxy is registered, nothing has been given up
  have hfresh : (∃ p, s.registry.proxies[a]? = some p ∧ p.state = .registered) →
      ∀ ref, .revoked ref ∉ s.log := by
    rintro ⟨p, hp, hstate⟩ ref href
    exact hs.retired (.inr ⟨ref, href⟩) p hp hstate
  have happend : ∀ {operation ref}, .revoked ref ∉ s.log →
      NoLateCall (s.log ++ [.invoked operation ref]) := by
    intro operation ref href
    refine List.pairwise_append.2 ⟨hs.log, List.pairwise_singleton _ _, ?_⟩
    rintro e he e' he' op ref' rfl rfl
    cases List.mem_singleton.1 he'
    exact href he
  cases h with
  | @write t w o call hidle h =>
    refine ⟨hs.retired, fun t' operation call' hcopied => ?_, hs.log⟩
    by_cases ht : t' = t
    · exact hfresh (Write.registered_of_exec h) _
    · exact hs.copied t' operation call' (by simpa [ht] using hcopied)
  | @call t operation call h =>
    refine ⟨fun hr => hs.retired (hr.imp_right ?_), fun t' operation' call' hcopied => ?_,
      happend (hs.copied t operation call h)⟩
    · rintro ⟨ref, href⟩
      exact ⟨ref, by simpa using href⟩
    · by_cases ht : t' = t
      · subst ht
        simp at hcopied
      · have := hs.copied t' operation' call' (by simpa [ht] using hcopied)
        simpa using this
  | @read read o call h =>
    have hnone := hfresh (Read.registered_of_exec h)
    refine ⟨fun hr => hs.retired (hr.imp_right ?_), fun t' operation' call' hcopied => ?_,
      happend (hnone _)⟩
    · rintro ⟨ref, href⟩
      exact ⟨ref, by simpa using href⟩
    · simpa using hnone call'.operationsRef
  | @revoke revocation o p r' hidle hp h =>
    exact ⟨fun _ => Revocation.retires h, hs.copied, hs.log⟩
  | @returns ref h =>
    refine ⟨fun _ => hs.retired (.inl (by rw [h]; simp)), fun t operation call hcopied => ?_, ?_⟩
    · have hnot := hguard t operation call hcopied
      rw [h] at hnot
      have hold := hs.copied t operation call hcopied
      simp only [List.mem_append, List.mem_singleton, AccessEvent.revoked.injEq, not_or]
      exact ⟨hold, fun heq => hnot (by rw [heq])⟩
    · refine List.pairwise_append.2 ⟨hs.log, List.pairwise_singleton _ _, ?_⟩
      rintro e - e' he' op ref' - rfl
      cases List.mem_singleton.1 he'

end AccessingInvariant

theorem accessingInvariant_reachable
    (h : ((accessingSystem T α a).restrict NoWriterUnderWay).Reachable s) :
    AccessingInvariant a s := by
  refine h.invariant ?_ fun s act s' _ hs hn => hs.step hn.1 hn.2
  rintro s ⟨calls, rfl⟩
  refine ⟨?_, ?_, List.Pairwise.nil⟩
  · rintro (hr | ⟨ref, href⟩)
    · exact absurd rfl hr
    · cases href
  · intro t operation call hcopied
    cases hcopied

/-- **No call after a revocation.**  In every run in which the owner's call to drop or unregister
the proxy returns only when no writer is on its way from the check of its write to the setter, no
operation of the owner is called with the former reference after that call has returned. -/
theorem no_call_after_revocation
    (h : ((accessingSystem T α a).restrict NoWriterUnderWay).Reachable s) : NoLateCall s.log :=
  (accessingInvariant_reachable h).log

end

/-! ### A writer that is under way -/

/-- The registry can be locked, and X-Plane accepts the accessor. -/
def hostingOutcomes : Outcomes := ⟨.none, fun _ => true, some 0⟩

/-- A proxy with the reference 7, writable for everybody and registered. -/
def hostingCalls : List (Outcomes × DataproxyCall) :=
  [(hostingOutcomes, .reserve ⟨some (bytes "a"), xplmTypeInt, permissionAll, some 7, some 1,
      ⟨some 0, some 1, some 2, some 3, some 4⟩⟩),
    (hostingOutcomes, .register (some 0))]

/-- The setter that X-Plane finds when it writes an integer to the proxy. -/
def hostedCall : SetterCall Unit := ⟨1, some 7, xplmTypeInt, (), 0, 1, none⟩

/-- The proxy, with nobody accessing it. -/
def hosted : Accessing Unit Unit := ⟨DataproxyCall.run hostingCalls, fun _ => none, none, []⟩

theorem hosted_write (s : Accessing Unit Unit) (hs : s.registry = hosted.registry)
    (hidle : s.copied () = none) :
    AccessingStep 0 s (.write () (.xpInteger ()))
      { s with copied := Function.update s.copied () (some (.simpleSet, hostedCall)) } :=
  .write (w := .xpInteger ()) (o := hostingOutcomes) hidle (by rw [hs]; rfl)

theorem hosted_revoke (s : Accessing Unit Unit) (hs : s.registry = hosted.registry)
    (hidle : s.returning = none) :
    AccessingStep 0 s (.revoke .drop)
      { s with
        registry := (hosted.registry.dropDataproxy hostingOutcomes (some 0)).2
        returning := some (some 7) } := by
  obtain ⟨p, hp, href⟩ : ∃ p, hosted.registry.proxies[0]? = some p ∧ p.operationsRef = some 7 :=
    ⟨_, rfl, rfl⟩
  rw [← href]
  exact .revoke (o := hostingOutcomes) hidle (by rw [hs]; exact hp) (by rw [hs]; rfl)

/-- X-Plane copies the setter, the owner drops its proxy, and the setter is called for an owner that
is gone. -/
theorem call_after_revocation :
    ∃ s, (accessingSystem Unit Unit 0).Reachable s ∧ ¬ NoLateCall s.log := by
  have h₀ : (accessingSystem Unit Unit 0).Reachable hosted := .start ⟨hostingCalls, rfl⟩
  have h₁ := h₀.step _ (hosted_write hosted rfl rfl)
  have h₂ := h₁.step _ (hosted_revoke _ rfl rfl)
  have h₃ := h₂.step _ (.returns rfl)
  have h₄ := h₃.step _ (.call (t := ()) rfl)
  refine ⟨_, h₄, fun hlog => ?_⟩
  exact (List.pairwise_pair.1 hlog) .simpleSet (some 7) rfl rfl

/-- A writer that has called the setter before the proxy is dropped. -/
theorem no_call_after_revocation_of_called :
    ∃ s : Accessing Unit Unit, s.log = [.invoked .simpleSet (some 7), .revoked (some 7)] ∧
      NoLateCall s.log := by
  have h₀ : ((accessingSystem Unit Unit 0).restrict NoWriterUnderWay).Reachable hosted :=
    .start ⟨hostingCalls, rfl⟩
  have h₁ := h₀.allowed (.write () _) trivial (hosted_write hosted rfl rfl)
  have h₂ := h₁.allowed (.call ()) trivial (.call (t := ()) rfl)
  have h₃ := h₂.allowed (.revoke _) trivial (hosted_revoke _ rfl rfl)
  have h₄ := h₃.allowed .returns (fun t operation call hcopied => by cases hcopied) (.returns rfl)
  exact ⟨_, rfl, no_call_after_revocation h₄⟩

end XprcServer
