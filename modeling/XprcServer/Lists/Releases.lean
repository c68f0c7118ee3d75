import XprcServer.Lib.System
import XprcServer.Lists.Leftovers

/-!
# Every value is released once

Values are appended to a preallocated list, deleted at once or later, moved by compacting, and
whatever is left is destroyed with the list.  `Tracked` follows such a history: which values were
appended, and what was asked for when they were deleted.

* `Tracked.Accounts` : the values appended are in use, left, or destroyed;
* `Tracked.Accounts.perform` : every call keeps that;
* `preallocList_releases_once` : over any history every value is destroyed once, not before it is
  deleted or the list is destroyed, and with the destructor that was recorded unless that is
  overridden.
-/

namespace XprcServer

open Lib

variable {ν δ : Type}

/-- A value that was deleted, and what was to become of it -/
structure Deletion (ν δ : Type) where
  value : ν
  destructor : δ
  deferred : Bool

/-- A list with its history -/
structure Tracked (ν δ : Type) where
  list : PreallocList
  heap : PreallocHeap ν δ
  appended : List ν
  deleted : List (Deletion ν δ)

namespace PreallocOp

/-- The value a successful call appends -/
def appends : PreallocOp ν δ → List ν
  | .append _ value => value.toList
  | _ => []

/-- The value a successful call deletes -/
def deletes (heap : PreallocHeap ν δ) : PreallocOp ν δ → List (Deletion ν δ)
  | .deleteItem (some item) (some destructor) deferred =>
    (heap.content item).value.toList.map fun value => ⟨value, destructor, deferred⟩
  | _ => []

end PreallocOp

namespace Tracked

def start (ν δ : Type) : Tracked ν δ :=
  ⟨(createPreallocatedList ν δ).1, (createPreallocatedList ν δ).2, [], []⟩

/-- A call on the list, which is recorded if it succeeds -/
def perform (s : Tracked ν δ) (op : PreallocOp ν δ) : Access (Tracked ν δ) := do
  let (answer, list, heap) ← op.perform (s.list, s.heap)
  return if answer = .done true then
    ⟨list, heap, s.appended ++ op.appends, s.deleted ++ op.deletes s.heap⟩
  else { s with list, heap }

/-- Values are distinct and not NULL, items to be deleted are in memory, and there is a
destructor. -/
def Fits (s : Tracked ν δ) : PreallocOp ν δ → Prop
  | .append _ value => ∃ v, value = some v ∧ v ∉ s.appended
  | .getItem _ => True
  | .deleteItem item valueDestructor deferred =>
    PreallocOp.Allowed (s.list, s.heap) (.deleteItem item valueDestructor deferred) ∧
    valueDestructor ≠ none
  | .compact _ valueDestructor _ => valueDestructor ≠ none

/-- The histories of a list -/
def system (ν δ : Type) : System (Tracked ν δ) (PreallocOp ν δ) :=
  (System.ofExec (start ν δ) perform).restrict Fits

/-- Which destructor a call may use for a value. -/
def Releases (s : Tracked ν δ) : PreallocOp ν δ → δ → ν → Prop
  | .deleteItem (some item) valueDestructor false, destructor, value =>
    valueDestructor = some destructor ∧ (s.heap.content item).value = some value
  | .compact _ valueDestructor overrideDeferred, destructor, value =>
    ∃ recorded, ⟨value, recorded, true⟩ ∈ s.deleted ∧
      some destructor = if overrideDeferred then valueDestructor else some recorded
  | _, _, _ => False

/-- **The ledger**: a value that was appended is in use, left or destroyed, and one that was deleted
is left or destroyed. -/
structure Accounts (s : Tracked ν δ) (seq : List (ItemAddress × Option ν))
    (left : List (ItemAddress × Option δ × ν)) : Prop where
  keeps : s.list.Keeps s.heap seq left
  distinct : s.appended.Nodup
  owned : (s.appended.map some).Perm
    (seq.map Prod.snd ++ (left.map fun e => some e.2.2) ++ s.heap.destroyed.map Prod.snd)
  deleted : (s.deleted.map fun d => some d.value).Perm
    ((left.map fun e => some e.2.2) ++ s.heap.destroyed.map Prod.snd)
  recorded : ∀ e ∈ left, ∃ destructor, e.2.1 = some destructor ∧
  ⟨e.2.2, destructor, true⟩ ∈ s.deleted

variable {s : Tracked ν δ} {seq : List (ItemAddress × Option ν)}
  {left : List (ItemAddress × Option δ × ν)}

theorem accounts_start : (start ν δ).Accounts [] [] :=
  ⟨PreallocList.keeps_create, List.nodup_nil, .refl _, .refl _, nofun⟩

/-- A value in use is not NULL. -/
theorem Accounts.exists_value (h : s.Accounts seq left) {e : ItemAddress × Option ν}
    (he : e ∈ seq) :
    ∃ value, e.2 = some value := by
  have hmem : e.2 ∈ s.appended.map some := h.owned.mem_iff.2
    (List.mem_append_left _ (List.mem_append_left _ (List.mem_map_of_mem he)))
  obtain ⟨value, -, hvalue⟩ := List.mem_map.1 hmem
  exact ⟨value, hvalue.symm⟩

end Tracked

/-- With a destructor every value is released once. -/
theorem map_snd_release (destructor : δ) (overrideDeferred : Bool) (held : Option δ × ν) :
    (release (some destructor) overrideDeferred held).map Prod.snd = [some held.2] := by
  obtain ⟨recorded, value⟩ := held
  cases recorded <;> cases overrideDeferred <;> rfl

theorem map_snd_flatMap_release (destructor : δ) (overrideDeferred : Bool)
    (entries : List (ItemAddress × Option δ × ν)) :
    (entries.flatMap fun e => release (some destructor) overrideDeferred e.2).map Prod.snd =
      entries.map fun e => some e.2.2 := by
  rw [List.map_flatMap, List.map_eq_flatMap]
  exact List.flatMap_congr fun e _ => map_snd_release destructor overrideDeferred e.2

theorem mem_release {valueDestructor : Option δ} {overrideDeferred : Bool} {held : Option δ × ν}
    {destructor : δ} {value : ν}
    (h : (destructor, some value) ∈ release valueDestructor overrideDeferred held) :
    held.2 = value ∧ ((∃ recorded, held.1 = some recorded ∧
      some destructor = if overrideDeferred then valueDestructor else some recorded) ∨
      held.1 = none ∧ valueDestructor = some destructor) := by
  obtain ⟨recorded, value'⟩ := held
  cases recorded with
  | none =>
    obtain ⟨destructor', hdestructor, heq⟩ := List.mem_map.1 h
    cases heq
    exact ⟨rfl, .inr ⟨rfl, Option.mem_toList.1 hdestructor⟩⟩
  | some recorded =>
    cases overrideDeferred with
    | false =>
      cases List.mem_singleton.1 h
      exact ⟨rfl, .inl ⟨destructor, rfl, rfl⟩⟩
    | true =>
      obtain ⟨destructor', hdestructor, heq⟩ := List.mem_map.1 h
      cases heq
      exact ⟨rfl, .inl ⟨recorded, rfl, (Option.mem_toList.1 hdestructor).symm⟩⟩

namespace Tracked

variable {s : Tracked ν δ} {seq : List (ItemAddress × Option ν)}
  {left : List (ItemAddress × Option δ × ν)}

theorem Accounts.append (h : s.Accounts seq left) (alloc : Bool) {value : ν}
    (hnew : value ∉ s.appended) :
    ∃ s' seq', s.perform (.append alloc (some value)) = some s' ∧ s'.Accounts seq' left ∧
      s'.heap.destroyed = s.heap.destroyed := by
  rcases h.keeps.append alloc (some value) with ⟨happend, -⟩ |
    ⟨item, list', heap', happend, hkeeps, hdestroyed, -⟩
  · exact ⟨s, seq, by simp [perform, PreallocOp.perform, happend], h, rfl⟩
  · refine ⟨⟨list', heap', s.appended ++ [value], s.deleted⟩, seq ++ [(item, some value)],
      by simp [perform, PreallocOp.perform, happend, PreallocOp.appends, PreallocOp.deletes],
      ⟨hkeeps, ?_, ?_, ?_, h.recorded⟩, hdestroyed⟩
    · refine List.nodup_append.2 ⟨h.distinct, List.nodup_cons.2 ⟨List.not_mem_nil, List.nodup_nil⟩,
        fun a ha b hb => ?_⟩
      rintro rfl
      exact hnew (List.mem_singleton.1 hb ▸ ha)
    · classical
      rw [hdestroyed]
      refine List.perm_iff_count.2 fun v => ?_
      have howned := List.perm_iff_count.1 h.owned v
      simp only [List.map_append, List.count_append, List.map_cons, List.map_nil] at howned ⊢
      omega
    · rw [hdestroyed]
      exact h.deleted

/-- A value that is deleted is left or destroyed. -/
theorem Accounts.deleteItem (h : s.Accounts seq left) {item : Option ItemAddress} {destructor : δ}
    {deferred : Bool}
    (ha : PreallocOp.Allowed (s.list, s.heap) (.deleteItem item (some destructor) deferred)) :
    ∃ s' seq' left' calls, s.perform (.deleteItem item (some destructor) deferred) = some s' ∧
      s'.Accounts seq' left' ∧ s'.heap.destroyed = s.heap.destroyed ++ calls ∧
      ∀ c v, (c, some v) ∈ calls →
        s.Releases (.deleteItem item (some destructor) deferred) c v := by
  cases item with
  | none => exact ⟨s, seq, left, [], rfl, h, (List.append_nil _).symm, nofun⟩
  | some item =>
    rcases h.keeps.deleteItem ha (some destructor) deferred with
      ⟨before, value, behind, rfl, list', heap', hdelete, hkeeps, hdestroyed, -⟩ | ⟨-, hrefused⟩
    swap
    · exact ⟨s, seq, left, [], by simp [perform, PreallocOp.perform, hrefused], h,
        (List.append_nil _).symm, nofun⟩
    have hmem : (item, value) ∈ before ++ (item, value) :: behind := by simp
    obtain ⟨value, rfl⟩ : ∃ v, value = some v := h.exists_value hmem
    have hvalue := (h.keeps.stands.content hmem).2
    refine ⟨⟨list', heap', s.appended, s.deleted ++ [⟨value, destructor, deferred⟩]⟩,
      before ++ behind, _, _, by simp [perform, PreallocOp.perform, hdelete, PreallocOp.appends,
        PreallocOp.deletes, hvalue],
      ⟨hkeeps, h.distinct, ?_, ?_, ?_⟩, hdestroyed, ?_⟩
    · classical
      refine List.perm_iff_count.2 fun v => ?_
      have howned := List.perm_iff_count.1 h.owned v
      rw [hdestroyed]
      cases deferred <;>
        · simp only [List.map_append, List.count_append, List.map_cons,
            List.map_nil, List.count_cons, List.count_nil, Option.toList_some, if_true,
            Bool.false_eq_true, if_false] at howned ⊢
          omega
    · classical
      refine List.perm_iff_count.2 fun v => ?_
      have hdeleted := List.perm_iff_count.1 h.deleted v
      rw [hdestroyed]
      cases deferred <;>
        · simp only [List.map_append, List.count_append, List.map_cons,
            List.map_nil, List.count_cons, List.count_nil, Option.toList_some, if_true,
            Bool.false_eq_true, if_false] at hdeleted ⊢
          omega
    · intro e he
      rcases List.mem_append.1 he with he | he
      · cases deferred with
        | false => cases he
        | true =>
          cases List.mem_singleton.1 he
          exact ⟨destructor, rfl, List.mem_append_right _ (List.mem_singleton_self _)⟩
      · obtain ⟨recorded, hrecorded, hmem⟩ := h.recorded e he
        exact ⟨recorded, hrecorded, List.mem_append_left _ hmem⟩
    · intro c v hcall
      cases deferred with
      | true => cases hcall
      | false =>
        cases List.mem_singleton.1 hcall
        exact ⟨rfl, hvalue⟩

/-- Compacting destroys what is left, as it was recorded or with its own destructor. -/
theorem Accounts.compact (h : s.Accounts seq left) (alloc : ℕ → Bool) (destructor : δ)
    (overrideDeferred : Bool) :
    ∃ s' seq' left' calls, s.perform (.compact alloc (some destructor) overrideDeferred) = some s' ∧
      s'.Accounts seq' left' ∧ s'.heap.destroyed = s.heap.destroyed ++ calls ∧
      ∀ c v, (c, some v) ∈ calls →
        s.Releases (.compact alloc (some destructor) overrideDeferred) c v := by
  rcases h.keeps.compact alloc (some destructor) overrideDeferred with
    ⟨list', heap', seq', released, hcompact, hkeeps, hvalues, hdestroyed, hperm⟩ |
    ⟨heap', hcompact, -, hkeeps, hdestroyed⟩
  swap
  · refine ⟨⟨s.list, heap', s.appended, s.deleted⟩, seq, left, [],
      by simp [perform, PreallocOp.perform, hcompact], ⟨hkeeps, h.distinct, ?_, ?_, h.recorded⟩,
      by rw [hdestroyed, List.append_nil], fun _ _ hcall => absurd hcall List.not_mem_nil⟩
    · rw [hdestroyed]
      exact h.owned
    · rw [hdestroyed]
      exact h.deleted
  have hreleased := hperm.map Prod.snd
  rw [map_snd_flatMap_release] at hreleased
  refine ⟨⟨list', heap', s.appended, s.deleted⟩, seq', [], released,
    by simp [perform, PreallocOp.perform, hcompact, PreallocOp.appends, PreallocOp.deletes],
    ⟨hkeeps, h.distinct, ?_, ?_, fun _ he => absurd he List.not_mem_nil⟩, hdestroyed,
    fun c v hcall => ?_⟩
  · rw [hdestroyed, hvalues, List.map_append, List.map_nil, List.append_nil]
    refine h.owned.trans ?_
    rw [List.append_assoc]
    exact (List.perm_append_comm.trans (hreleased.symm.append_left _)).append_left _
  · rw [hdestroyed, List.map_append]
    exact h.deleted.trans (List.perm_append_comm.trans (hreleased.symm.append_left _))
  · obtain ⟨e, he, hcall⟩ := List.mem_flatMap.1 (hperm.mem_iff.1 hcall)
    obtain ⟨recorded, hrecorded, hmem⟩ := h.recorded e he
    obtain ⟨rfl, ⟨recorded', hrecorded', hc⟩ | ⟨hnone, -⟩⟩ := mem_release hcall
    · obtain rfl : recorded = recorded' := Option.some.inj (hrecorded.symm.trans hrecorded')
      exact ⟨recorded, hmem, hc⟩
    · rw [hnone] at hrecorded
      cases hrecorded

/-- **Every call keeps the ledger.** -/
theorem Accounts.perform (h : s.Accounts seq left) {op : PreallocOp ν δ} (hfits : s.Fits op) :
    ∃ s' seq' left' calls, s.perform op = some s' ∧ s'.Accounts seq' left' ∧
      s'.heap.destroyed = s.heap.destroyed ++ calls ∧
      ∀ c v, (c, some v) ∈ calls → s.Releases op c v := by
  cases op with
  | append alloc value =>
    obtain ⟨v, rfl, hnew⟩ := hfits
    obtain ⟨s', seq', hperform, h', hdestroyed⟩ := h.append alloc hnew
    exact ⟨s', seq', left, [], hperform, h', by rw [hdestroyed, List.append_nil], nofun⟩
  | getItem index =>
    refine ⟨s, seq, left, [], ?_, h, (List.append_nil _).symm, nofun⟩
    simp [Tracked.perform, PreallocOp.perform, h.keeps.stands.getItem]
  | deleteItem item valueDestructor deferred =>
    obtain ⟨hallowed, hsome⟩ := hfits
    obtain ⟨destructor, rfl⟩ := Option.ne_none_iff_exists'.1 hsome
    exact h.deleteItem hallowed
  | compact alloc valueDestructor overrideDeferred =>
    obtain ⟨destructor, rfl⟩ := Option.ne_none_iff_exists'.1 hfits
    exact h.compact alloc destructor overrideDeferred

/-- The ledger holds along every history. -/
theorem accounts_reachable (h : (system ν δ).Reachable s) : ∃ seq left, s.Accounts seq left := by
  refine h.invariant (I := fun s => ∃ seq left, s.Accounts seq left) ?_ ?_
  · rintro s rfl
    exact ⟨[], [], accounts_start⟩
  · rintro s op s' - ⟨seq, left, h⟩ ⟨hfits, hperform⟩
    obtain ⟨s'', seq', left', calls, hperform', h', -⟩ := h.perform hfits
    obtain rfl : s'' = s' := Option.some.inj (hperform'.symm.trans hperform)
    exact ⟨seq', left', h'⟩

theorem Accounts.destroy (h : s.Accounts seq left) (destructor : δ) (overrideDeferred : Bool) :
    ∃ heap' calls, s.list.destroy s.heap (some destructor) overrideDeferred = some heap' ∧
      heap'.destroyed = s.heap.destroyed ++ calls ∧
      (heap'.destroyed.map Prod.snd).Perm (s.appended.map some) ∧
      ∀ c v, (c, some v) ∈ calls →
        (∃ recorded, ⟨v, recorded, true⟩ ∈ s.deleted ∧
          c = if overrideDeferred then destructor else recorded) ∨
        (∀ d ∈ s.deleted, d.value ≠ v) ∧ c = destructor := by
  obtain ⟨heap', released, hdestroy, -, hdestroyed, hperm⟩ :=
    h.keeps.destroy (some destructor) overrideDeferred
  have hreleased := hperm.map Prod.snd
  rw [map_snd_flatMap_release, List.map_append] at hreleased
  have hentries : ((PreallocList.inUseEntries seq : List (ItemAddress × Option δ × ν)).map fun e =>
      some e.2.2) = seq.map Prod.snd := by
    have hsome : ∀ e ∈ seq, ∃ value, e.2 = some value := fun e => h.exists_value
    clear hreleased hperm h
    induction seq with
    | nil => rfl
    | cons e seq ih =>
      obtain ⟨value, hvalue⟩ := hsome e List.mem_cons_self
      have hrest := ih fun e' he' => hsome e' (List.mem_cons_of_mem e he')
      rw [PreallocList.inUseEntries, List.filterMap_cons, hvalue, Option.map_some, List.map_cons,
        List.map_cons, hvalue]
      exact congrArg (some value :: ·) hrest
  rw [hentries] at hreleased
  refine ⟨heap', released, hdestroy, hdestroyed, ?_, fun c v hcall => ?_⟩
  · rw [hdestroyed, List.map_append]
    exact ((hreleased.append_left _).trans List.perm_append_comm).trans h.owned.symm
  · obtain ⟨e, he, hcall⟩ := List.mem_flatMap.1 (hperm.mem_iff.1 hcall)
    obtain ⟨hv, hcase⟩ := mem_release hcall
    rcases List.mem_append.1 he with he | he
    · -- a value in use was not deleted: it would have been appended twice
      obtain ⟨hnone, hmem⟩ := PreallocList.mem_inUseEntries.1 he
      refine .inr ⟨fun d hd hdv => ?_, ?_⟩
      · have hdeleted := h.deleted.mem_iff.1 (List.mem_map_of_mem (f := fun d => some d.value) hd)
        have hnodup := h.owned.nodup_iff.1 (h.distinct.map fun _ _ => Option.some.inj)
        rw [List.append_assoc] at hnodup
        refine (List.nodup_append.1 hnodup).2.2 (some e.2.2)
          (List.mem_map_of_mem (f := Prod.snd) hmem) (some d.value) hdeleted ?_
        rw [hv, hdv]
      · rcases hcase with ⟨recorded, hrecorded, -⟩ | ⟨-, hc⟩
        · rw [hnone] at hrecorded
          cases hrecorded
        · exact (Option.some.inj hc).symm
    · obtain ⟨recorded, hrecorded, hmem⟩ := h.recorded e he
      subst hv
      rcases hcase with ⟨recorded', hrecorded', hc⟩ | ⟨hnone, -⟩
      · obtain rfl : recorded = recorded' := Option.some.inj (hrecorded.symm.trans hrecorded')
        refine .inl ⟨recorded, hmem, ?_⟩
        cases overrideDeferred <;> exact Option.some.inj hc
      · rw [hnone] at hrecorded
        cases hrecorded

end Tracked

/-- **Every value is released once.**  Over any history of a list whose values are distinct and not
NULL: a destructor was called for no value that was not deleted; every further call succeeds or
fails without harm, and calls destructors only for a value that it deletes at once, or, while
compacting, for one whose destruction was deferred, with the recorded destructor unless that is
overridden; and destroying the list does so for the values still in use and the deferred ones, after
which every value that was appended, and no other, has been destroyed exactly once. -/
theorem preallocList_releases_once {ν δ : Type} {s : Tracked ν δ}
    (h : (Tracked.system ν δ).Reachable s) :
    s.appended.Nodup ∧ (s.deleted.map Deletion.value).Nodup ∧
      (∀ c v, (c, some v) ∈ s.heap.destroyed → ∃ d ∈ s.deleted, d.value = v) ∧
      (∀ op, s.Fits op → ∃ s' calls, s.perform op = some s' ∧
        s'.heap.destroyed = s.heap.destroyed ++ calls ∧
        ∀ c v, (c, some v) ∈ calls → s.Releases op c v) ∧
      ∀ destructor overrideDeferred, ∃ heap' calls,
        s.list.destroy s.heap (some destructor) overrideDeferred = some heap' ∧
        heap'.destroyed = s.heap.destroyed ++ calls ∧
        (heap'.destroyed.map Prod.snd).Perm (s.appended.map some) ∧
        ∀ c v, (c, some v) ∈ calls →
          (∃ recorded, ⟨v, recorded, true⟩ ∈ s.deleted ∧
            c = if overrideDeferred then destructor else recorded) ∨
          (∀ d ∈ s.deleted, d.value ≠ v) ∧ c = destructor := by
  obtain ⟨seq, left, haccounts⟩ := Tracked.accounts_reachable h
  refine ⟨haccounts.distinct, ?_, fun c v hdestroyed => ?_, fun op hfits => ?_, haccounts.destroy⟩
  · have hnodup := haccounts.owned.nodup_iff.1 (haccounts.distinct.map fun _ _ => Option.some.inj)
    rw [List.append_assoc] at hnodup
    have hdeleted := haccounts.deleted.nodup_iff.2 (List.nodup_append.1 hnodup).2.1
    refine List.Nodup.of_map some ?_
    rw [List.map_map]
    exact hdeleted
  · have hmem : some v ∈ s.heap.destroyed.map Prod.snd :=
      List.mem_map_of_mem (f := Prod.snd) hdestroyed
    obtain ⟨d, hd, hdv⟩ :=
      List.mem_map.1 (haccounts.deleted.mem_iff.2 (List.mem_append_right _ hmem))
    exact ⟨d, hd, Option.some.inj hdv⟩
  · obtain ⟨s', seq', left', calls, hperform, -, hdestroyed, hcalls⟩ := haccounts.perform hfits
    exact ⟨s', calls, hperform, hdestroyed, hcalls⟩

/-- Two values, of which one is deleted for later and released by compacting. -/
theorem preallocList_releases_once_two :
    ∃ s : Tracked ℕ Bool, s.appended = [7, 8] ∧ s.heap.destroyed = [(true, some 7)] ∧
      ∃ heap', s.list.destroy s.heap (some false) false = some heap' ∧
        (heap'.destroyed.map Prod.snd).Perm [some 7, some 8] := by
  have hstart : (Tracked.system ℕ Bool).Reachable (Tracked.start ℕ Bool) := .start rfl
  have h₁ := hstart.allowed (.append true (some 7)) ⟨7, rfl, nofun⟩
    (Option.some_get (show Option.isSome _ = true from rfl)).symm
  have h₂ := h₁.allowed (.append true (some 8)) ⟨8, rfl, by decide⟩
    (Option.some_get (show Option.isSome _ = true from rfl)).symm
  have h₃ := h₂.allowed (.deleteItem (some (0, ⟨0, by decide⟩)) (some true) true)
    ⟨show Option.isSome _ = true from rfl, Option.some_ne_none true⟩
    (Option.some_get (show Option.isSome _ = true by decide +kernel)).symm
  have h₄ := h₃.allowed (.compact (fun _ => true) (some false) false) (Option.some_ne_none false)
    (Option.some_get (show Option.isSome _ = true by decide +kernel)).symm
  obtain ⟨-, -, -, -, hdestroy⟩ := preallocList_releases_once h₄
  obtain ⟨heap', calls, hdestroy, -, hperm, -⟩ := hdestroy false false
  refine ⟨_, by decide +kernel, by decide +kernel, heap', hdestroy, ?_⟩
  exact hperm

end XprcServer
